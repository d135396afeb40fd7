import ParallelForge.Base.RegexLaw
import ParallelForge.Redaction.Patterns

/-!
# What the credential patterns read (`domain/payload.py:17-27`)

Each pattern is a lead followed by one of some forms, and a form has the secret
in its middle. Where a match ends and where its secret starts is computed here
from the runs of letters behind it.
-/

namespace ParallelForge.Redaction
open Base Regex

/-! ### Words -/

section words
variable {T : Text} {i j : ℕ}

theorem ends_seqs_cons (r : Regex ℕ) (rs : List (Regex ℕ)) (i : ℕ) :
    ends T (seqs (r :: rs)) i = (ends T r i).flatMap (ends T (seqs rs)) := by
  cases rs with
  | nil =>
    have hid : ends T (seqs []) = fun k => [k] := rfl
    rw [hid, List.flatMap_singleton']
    rfl
  | cons s rs => rfl

theorem ends_seqs_nil (i : ℕ) : ends T (seqs []) i = [i] := rfl

theorem mem_ends_seqs_cons {r : Regex ℕ} {rs : List (Regex ℕ)} :
    j ∈ ends T (seqs (r :: rs)) i ↔ ∃ k ∈ ends T r i, j ∈ ends T (seqs rs) k := by
  rw [ends_seqs_cons, List.mem_flatMap]

/-- The text has the word at a position, without regard to case. -/
def Reads (T : Text) (i : ℕ) (w : Text) : Prop :=
  ∀ k, k < w.length → T[i + k]?.map foldCase = w[k]?

theorem reads_nil : Reads T i [] := fun _ hk => absurd hk (Nat.not_lt_zero _)

theorem reads_cons {c : ℕ} {w : Text} :
    Reads T i (c :: w) ↔ T[i]?.map foldCase = some c ∧ Reads T (i + 1) w := by
  constructor
  · intro h
    refine ⟨h 0 (Nat.succ_pos _), fun k hk => ?_⟩
    have hnext := h (k + 1) (Nat.succ_lt_succ hk)
    rwa [← Nat.add_assoc, Nat.add_right_comm, List.getElem?_cons_succ] at hnext
  · intro h k hk
    cases k with
    | zero => exact h.1
    | succ k =>
      have hnext := h.2 k (Nat.lt_of_succ_lt_succ hk)
      rwa [← Nat.add_assoc, Nat.add_right_comm, List.getElem?_cons_succ]

theorem ends_word (w : Text) (i : ℕ) [Decidable (Reads T i w)] :
    ends T (seqs (w.map fun c => .chr fun d => foldCase d == c)) i =
      if Reads T i w then [i + w.length] else [] := by
  induction w generalizing i with
  | nil =>
    rw [if_pos reads_nil]
    rfl
  | cons c w ih =>
    classical
    rw [List.map_cons, ends_seqs_cons]
    by_cases hc : T[i]?.map foldCase = some c
    · have hany : T[i]?.any (fun d => foldCase d == c) = true := by
        cases hget : T[i]? with
        | none =>
          rw [hget] at hc
          cases hc
        | some d =>
          rw [hget] at hc
          simpa using hc
      rw [ends_chr_true hany, List.flatMap_cons, List.flatMap_nil, List.append_nil, ih]
      have hsame : Reads T i (c :: w) ↔ Reads T (i + 1) w :=
        reads_cons.trans (and_iff_right hc)
      by_cases hw : Reads T (i + 1) w
      · rw [if_pos hw, if_pos (hsame.mpr hw), List.length_cons]
        congr 1
        omega
      · rw [if_neg hw, if_neg (fun h => hw (hsame.mp h))]
    · have hany : T[i]?.any (fun d => foldCase d == c) = false := by
        cases hget : T[i]? with
        | none => rfl
        | some d =>
          rw [hget] at hc
          simpa using hc
      rw [ends_chr_false hany, if_neg (fun h => hc (reads_cons.mp h).1)]
      rfl

theorem mem_ends_lit {s : String} : j ∈ ends T (lit s) i ↔
    Reads T i (text s) ∧ j = i + (text s).length := by
  classical
  rw [lit, ends_word]
  split
  · rename_i h
    rw [List.mem_singleton]
    exact ⟨fun hj => ⟨h, hj⟩, fun hj => hj.2⟩
  · rename_i h
    exact ⟨fun hj => absurd hj List.not_mem_nil, fun hj => absurd hj.1 h⟩

/- What a text reads at a position determines its letters there. -/
theorem Reads.letter {w : Text} (h : Reads T i w) (k : ℕ) (c : ℕ) (hc : w[k]? = some c) :
    T[i + k]?.map foldCase = some c := by
  have hk : k < w.length := (List.getElem?_eq_some_iff.mp hc).1
  rw [h k hk, hc]

theorem Reads.any {w : Text} (h : Reads T i w) (p : ℕ → Bool) (k : ℕ) (hk : k < w.length)
    (hp : ∀ c ∈ w, ∀ d, foldCase d = c → p d = true) : T[i + k]?.any p = true := by
  have hread := h k hk
  rw [List.getElem?_eq_getElem hk] at hread
  obtain ⟨d, hd, hfold⟩ := Option.map_eq_some_iff.mp hread
  rw [hd]
  exact hp _ (List.getElem_mem hk) d hfold

end words

/-! ### Secrets -/

/-- A pattern with its secret: what comes before, the secret, and what comes behind. -/
structure Credential where
  lead : Regex ℕ
  forms : List (Regex ℕ × Regex ℕ × Regex ℕ)

section credentials
variable (isAlnum : ℕ → Bool)

def authCredential : Credential where
  lead := seqs [wordEdge isAlnum, alt (lit "bearer") (lit "basic"), plus space]
  forms := [(.empty, atLeast (.chr (inClass "+/._~=-")) 8, .empty)]

def githubCredential : Credential where
  lead := wordEdge isAlnum
  forms := [(seqs [lit "gh", among "pousr", lit "_"], atLeast (.chr (inClass "_")) 20,
      wordEdge isAlnum),
    (lit "github_pat_", atLeast (.chr (inClass "_")) 20, wordEdge isAlnum)]

/-- Up to the value of an assignment. -/
def assignmentLead : Regex ℕ :=
  seqs [wordEdge isAlnum, opt (seq (lit "x") (opt (among "-_ "))), label, star space, among ":=",
    star space]

def quotedForm : Regex ℕ × Regex ℕ × Regex ℕ :=
  (among "\"'", plus (noneOf "\"'"), among "\"'")

def schemeValue : Regex ℕ :=
  seqs [alt (lit "bearer") (lit "basic"), plus space, plus (solid ",;")]

def bareForm : Regex ℕ × Regex ℕ × Regex ℕ := (.empty, alt schemeValue (plus (solid ",;")), .empty)

def assignmentCredential : Credential where
  lead := assignmentLead isAlnum
  forms := [quotedForm, bareForm]

def urlLead : Regex ℕ :=
  seqs [wordEdge isAlnum, .chr (fun c => 97 ≤ foldCase c && foldCase c ≤ 122),
    star (.chr (inClass "+.-")), lit "://", plus (solid "/@:"), lit ":"]

def urlCredential : Credential where
  lead := urlLead isAlnum
  forms := [(.empty, plus (solid "/@"), lit "@")]

def keyCredential : Credential where
  lead := keyLine "begin"
  forms := [(.empty, lazy (.chr fun _ => true), keyLine "end")]

/-- In the order of `patterns`. -/
def credentials : List Credential :=
  [authCredential isAlnum, githubCredential isAlnum, assignmentCredential isAlnum,
    urlCredential isAlnum, keyCredential]

end credentials

section spans
variable (T : Text)

/-- The start and the end of the secret, and the end of the match, as the matcher finds them. -/
def formSpans (f : Regex ℕ × Regex ℕ × Regex ℕ) (k : ℕ) : List (ℕ × ℕ × ℕ) :=
  (ends T f.1 k).flatMap fun p => (ends T f.2.1 p).flatMap fun q =>
    (ends T f.2.2 q).map fun j => (p, q, j)

def Credential.spans (c : Credential) (i : ℕ) : List (ℕ × ℕ × ℕ) :=
  (ends T c.lead i).flatMap fun k => c.forms.flatMap fun f => formSpans T f k

/-- The secret of the match at a position. -/
def Credential.secret (c : Credential) (i : ℕ) : Option (ℕ × ℕ × ℕ) := (c.spans T i).head?

theorem formSpans_end (f : Regex ℕ × Regex ℕ × Regex ℕ) (k : ℕ) :
    (formSpans T f k).map (·.2.2) = ends T (seqs [f.1, f.2.1, f.2.2]) k := by
  have hid : (ends T (seqs [])) = fun j => [j] := rfl
  rw [ends_seqs_cons, formSpans, List.map_flatMap]
  refine List.flatMap_congr fun p _ => ?_
  rw [ends_seqs_cons, List.map_flatMap]
  refine List.flatMap_congr fun q _ => ?_
  rw [ends_seqs_cons, hid, List.flatMap_singleton', List.map_map]
  exact List.map_id' _

theorem spans_end (c : Credential) (i : ℕ) : (c.spans T i).map (·.2.2) =
    (ends T c.lead i).flatMap fun k =>
      c.forms.flatMap fun f => ends T (seqs [f.1, f.2.1, f.2.2]) k := by
  rw [Credential.spans, List.map_flatMap]
  refine List.flatMap_congr fun k _ => ?_
  rw [List.map_flatMap]
  exact List.flatMap_congr fun f _ => formSpans_end T f k

theorem ends_seqs_append (rs ss : List (Regex ℕ)) (i : ℕ) :
    ends T (seqs (rs ++ ss)) i = (ends T (seqs rs) i).flatMap (ends T (seqs ss)) := by
  induction rs generalizing i with
  | nil =>
    show _ = [i].flatMap _
    rw [List.flatMap_singleton]
    rfl
  | cons r rs ih =>
    rw [List.cons_append, ends_seqs_cons, ends_seqs_cons, List.flatMap_assoc]
    exact List.flatMap_congr fun k _ => ih k

end spans

/-- The secret is found where the pattern is. -/
def Finds (c : Credential) (r : Regex ℕ) : Prop :=
  ∀ T i, ends T r i = (c.spans T i).map (·.2.2)

section finds
variable (isAlnum : ℕ → Bool)

theorem ends_seqs_empty (T : Text) (rs : List (Regex ℕ)) (k : ℕ) :
    ends T (seqs (.empty :: rs)) k = ends T (seqs rs) k := by
  rw [ends_seqs_cons]
  show [k].flatMap _ = _
  rw [List.flatMap_singleton]

theorem ends_bare (T : Text) (r : Regex ℕ) (k : ℕ) :
    ends T (seqs [.empty, r, .empty]) k = ends T r k := by
  have hempty : ends T (seqs [.empty]) = fun j => [j] := rfl
  rw [ends_seqs_empty, ends_seqs_cons, hempty, List.flatMap_singleton']

theorem ends_three (T : Text) (r r' r'' : Regex ℕ) (k : ℕ) : ends T (seqs [r, r', r'']) k =
    ((ends T r k).flatMap (ends T r')).flatMap (ends T (seqs [r''])) := by
  rw [ends_seqs_cons, List.flatMap_assoc]
  exact List.flatMap_congr fun p _ => ends_seqs_cons r' [r''] p

theorem auth_finds : Finds (authCredential isAlnum) (authValue isAlnum) := by
  intro T i
  rw [spans_end]
  show ends T (seqs ([wordEdge isAlnum, alt (lit "bearer") (lit "basic"), plus space] ++
    [atLeast (.chr (inClass "+/._~=-")) 8])) i = _
  rw [ends_seqs_append]
  refine List.flatMap_congr fun k _ => ?_
  rw [authCredential]
  simp only [List.flatMap_cons, List.flatMap_nil, List.append_nil, ends_bare]
  rfl

theorem assignment_finds : Finds (assignmentCredential isAlnum) (assignment isAlnum) := by
  intro T i
  rw [spans_end]
  show ends T (seqs ([wordEdge isAlnum, opt (seq (lit "x") (opt (among "-_ "))), label, star space,
    among ":=", star space] ++ [alt (seqs [among "\"'", plus (noneOf "\"'"), among "\"'"])
      (alt schemeValue (plus (solid ",;")))])) i = _
  rw [ends_seqs_append]
  refine List.flatMap_congr fun k _ => ?_
  rw [assignmentCredential]
  simp only [List.flatMap_cons, List.flatMap_nil, List.append_nil, bareForm, ends_bare]
  rfl

theorem url_finds : Finds (urlCredential isAlnum) (databaseUrl isAlnum) := by
  intro T i
  rw [spans_end]
  show ends T (seqs ([wordEdge isAlnum, .chr (fun c => 97 ≤ foldCase c && foldCase c ≤ 122),
    star (.chr (inClass "+.-")), lit "://", plus (solid "/@:"), lit ":"] ++
      [plus (solid "/@"), lit "@"])) i = _
  rw [ends_seqs_append]
  refine List.flatMap_congr fun k _ => ?_
  rw [urlCredential]
  simp only [List.flatMap_cons, List.flatMap_nil, List.append_nil, ends_seqs_empty]

theorem key_finds : Finds keyCredential privateKey := by
  intro T i
  rw [spans_end]
  show ends T (seqs ([keyLine "begin"] ++ [lazy (.chr fun _ => true), keyLine "end"])) i = _
  rw [ends_seqs_append]
  refine List.flatMap_congr fun k _ => ?_
  rw [keyCredential]
  simp only [List.flatMap_cons, List.flatMap_nil, List.append_nil, ends_seqs_empty]

theorem github_finds : Finds (githubCredential isAlnum) (githubToken isAlnum) := by
  intro T i
  rw [spans_end]
  show ends T (seqs ([wordEdge isAlnum] ++ [alt (seqs ([lit "gh", among "pousr", lit "_"] ++
    [atLeast (.chr (inClass "_")) 20]))
      (seq (lit "github_pat_") (atLeast (.chr (inClass "_")) 20)), wordEdge isAlnum])) i = _
  rw [ends_seqs_append]
  refine List.flatMap_congr fun k _ => ?_
  rw [ends_seqs_cons, githubCredential]
  simp only [List.flatMap_cons, List.flatMap_nil, List.append_nil]
  rw [ends, List.flatMap_append, ends_seqs_append,
    ends_three T (seqs [lit "gh", among "pousr", lit "_"]) _ _ k,
    ends_three T (lit "github_pat_") _ _ k]
  rfl

/-- The five patterns of the redaction, in order. -/
theorem credentials_find : List.Forall₂ Finds (credentials isAlnum) (patterns isAlnum) := by
  unfold credentials patterns
  exact .cons (auth_finds isAlnum) (.cons (github_finds isAlnum) (.cons (assignment_finds isAlnum)
    (.cons (url_finds isAlnum) (.cons key_finds .nil))))

theorem matchAt_eq {c : Credential} {r : Regex ℕ} (h : Finds c r) (T : Text) (i : ℕ) :
    matchAt T r i = (c.secret T i).map (·.2.2) := by
  rw [matchAt, h T i, List.head?_map]
  rfl

end finds

end ParallelForge.Redaction
