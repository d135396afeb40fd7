import ParallelForge.Base.Substitute

/-!
# Finding the group of a pattern

`re.findall` with a pattern of one group, `lead(group)trail`. For a group that is a
lazy block, from an opening letter to a closing one, the match at a position is the
first closing letter with a trail, behind the only opening letter that a lead can end at.
-/

namespace ParallelForge.Base

structure GroupPattern (α : Type) where
  lead : Regex α
  group : Regex α
  trail : Regex α

namespace Regex
variable {α : Type}

section finding
variable (text : List α) (g : GroupPattern α)

/-- The group and the end of the match at a position. -/
def groupAt (i : ℕ) : Option (ℕ × ℕ × ℕ) :=
  (ends text g.lead i).findSome? fun a =>
    (ends text g.group a).findSome? fun b => (ends text g.trail b).head?.map fun c => (a, b, c)

/-- Matches that do not overlap, from a position on. -/
def groupsFrom : ℕ → ℕ → List (ℕ × ℕ × ℕ)
  | 0, _ => []
  | fuel + 1, i =>
    if text.length < i then []
    else match groupAt text g i with
      | some m => m :: groupsFrom fuel (max m.2.2 (i + 1))
      | none => groupsFrom fuel (i + 1)

def groups : List (ℕ × ℕ × ℕ) := groupsFrom text g (text.length + 1) 0

/-- `re.findall`. -/
def findall : List (List α) := (groups text g).map fun m => slice text m.1 m.2.1

/-- Where the last of some matches ends. -/
def endOf (ms : List (ℕ × ℕ × ℕ)) (i : ℕ) : ℕ := (ms.getLast?.map fun m => m.2.2).getD i

end finding

theorem endOf_nil (i : ℕ) : endOf [] i = i := rfl

theorem endOf_cons (m : ℕ × ℕ × ℕ) (ms : List (ℕ × ℕ × ℕ)) (i : ℕ) :
    endOf (m :: ms) i = endOf ms m.2.2 := by
  unfold endOf
  cases ms with
  | nil => rfl
  | cons m' ms => rw [List.getLast?_cons_cons]; simp [List.getLast?_cons]

theorem mem_groupsFrom {text : List α} {g : GroupPattern α} {n i : ℕ} {m : ℕ × ℕ × ℕ}
    (h : m ∈ groupsFrom text g n i) : ∃ k, groupAt text g k = some m := by
  induction n generalizing i with
  | zero => cases h
  | succ n ih =>
    rw [groupsFrom] at h
    split at h
    · cases h
    split at h
    · next m' hm' =>
      rcases List.mem_cons.mp h with rfl | h
      · exact ⟨i, hm'⟩
      · exact ih h
    · exact ih h

theorem groupsFrom_eq_nil {text : List α} {g : GroupPattern α} (h : ∀ k, groupAt text g k = none) (n i : ℕ) :
    groupsFrom text g n i = [] := by
  cases hl : groupsFrom text g n i with
  | nil => rfl
  | cons m ms =>
    have hmem : m ∈ groupsFrom text g n i := by
      rw [hl]
      exact List.mem_cons_self
    obtain ⟨k, hk⟩ := mem_groupsFrom hmem
    rw [h k] at hk
    cases hk

theorem slice_front {front back : List α} {i j : ℕ} (hj : j ≤ front.length) :
    slice (front ++ back) i j = slice front i j := by
  apply List.ext_getElem?
  intro k
  rw [getElem_slice, getElem_slice]
  split
  · rw [List.getElem?_append_left (by omega)]
  · rfl

/-! ## Lazy blocks -/

/-- From an opening letter to a closing one. -/
def block (p q : α → Bool) : Regex α := seqs [.chr p, .lazy (.chr fun _ => true), .chr q]

section block
variable {text : List α} {p q : α → Bool}

theorem mem_ends_block {a b : ℕ} : b ∈ ends text (block p q) a ↔
    text[a]?.any p = true ∧ ∃ e, a < e ∧ text[e]?.any q = true ∧ b = e + 1 := by
  have hlt : ∀ {r : α → Bool} {i : ℕ}, text[i]?.any r = true → i < text.length := by
    intro r i h
    by_contra hge
    rw [List.getElem?_eq_none (by omega)] at h
    cases h
  simp only [block, seqs, mem_ends_seq, mem_ends_chr]
  constructor
  · rintro ⟨_, ⟨ha, rfl⟩, e, he, hq, rfl⟩
    have hge := ends_ge _ he
    exact ⟨ha, e, by omega, hq, rfl⟩
  · rintro ⟨ha, e, hae, hq, rfl⟩
    have halt := hlt ha
    have helt := hlt hq
    refine ⟨a + 1, ⟨ha, rfl⟩, e, ?_, hq, rfl⟩
    rw [ends_lazy_any, List.mem_map]
    exact ⟨e - (a + 1), List.mem_range.mpr (by omega), by omega⟩

theorem seqs_block : seqs [.chr p, .lazy (.chr fun _ => true), .chr q] =
    .seq (.chr p) (.seq (.lazy (.chr fun _ => true)) (.chr q)) := rfl

theorem sorted_ends_block (a : ℕ) : (ends text (block p q) a).Pairwise (· < ·) := by
  rw [block, seqs_block, ends]
  cases ha : text[a]?.any p with
  | false => rw [ends_chr_false ha]; exact List.Pairwise.nil
  | true =>
    rw [ends_chr_true ha, List.flatMap_singleton, ends]
    rw [ends_lazy_any, List.pairwise_flatMap]
    refine ⟨?_, ?_⟩
    · intro e _
      cases hq : text[e]?.any q with
      | false => rw [ends_chr_false hq]; exact List.Pairwise.nil
      | true => rw [ends_chr_true hq]; exact List.pairwise_singleton ..
    · rw [List.pairwise_map]
      refine List.pairwise_lt_range.imp ?_
      intro k l hkl x hx y hy
      rw [mem_ends_chr] at hx hy
      omega

/- The first success in an increasing list. -/
theorem findSome_sorted {β : Type} {l : List ℕ} (hl : l.Pairwise (· < ·)) {f : ℕ → Option β} {x : β} :
    l.findSome? f = some x ↔ ∃ k ∈ l, f k = some x ∧ ∀ j ∈ l, j < k → f j = none := by
  induction l with
  | nil => simp
  | cons a l ih =>
    rw [List.pairwise_cons] at hl
    rw [List.findSome?_cons]
    cases hf : f a with
    | some y =>
      simp only [Option.some.injEq]
      constructor
      · rintro rfl
        refine ⟨a, List.mem_cons_self, hf, ?_⟩
        intro j hj hlt
        rcases List.mem_cons.mp hj with rfl | hj
        · omega
        · have hgt := hl.1 j hj
          omega
      · rintro ⟨k, hk, hx, hfirst⟩
        rcases List.mem_cons.mp hk with rfl | hk
        · rw [hf] at hx
          cases hx
          rfl
        · have hnone := hfirst a List.mem_cons_self (hl.1 k hk)
          rw [hf] at hnone
          cases hnone
    | none =>
      simp only [ih hl.2]
      constructor
      · rintro ⟨k, hk, hx, hfirst⟩
        refine ⟨k, List.mem_cons_of_mem a hk, hx, ?_⟩
        intro j hj hlt
        rcases List.mem_cons.mp hj with rfl | hj
        · exact hf
        · exact hfirst j hj hlt
      · rintro ⟨k, hk, hx, hfirst⟩
        rcases List.mem_cons.mp hk with rfl | hk
        · rw [hf] at hx
          cases hx
        · exact ⟨k, hk, hx, fun j hj hlt => hfirst j (List.mem_cons_of_mem a hj) hlt⟩

end block

/-! ## Opening and closing letters -/

section delimited
variable {text text' : List α} {lead trail : Regex α} {p q : α → Bool}

/-- A lead from one position ends at the opening letter at another. -/
def Opening (text : List α) (lead : Regex α) (p : α → Bool) (i a : ℕ) : Prop :=
  a ∈ ends text lead i ∧ text[a]?.any p = true

/-- A trail follows the closing letter. -/
def Closing (text : List α) (trail : Regex α) (q : α → Bool) (e c : ℕ) : Prop :=
  text[e]?.any q = true ∧ (ends text trail (e + 1)).head? = some c

/- A lead does not read an opening letter, so what opens later opens no earlier letter. -/
theorem Opening.mono (hlead : Within (fun c => !p c) lead) {i i' a a' : ℕ}
    (h : Opening text lead p i a) (h' : Opening text lead p i' a') (hi : i ≤ i') : a ≤ a' := by
  by_contra hlt
  have hcovered := ends_covers lead hlead i a h.1 a' (by have hge := ends_ge lead h'.1; omega) (by omega)
  have hopen := h'.2
  cases hc : text[a']? with
  | none => rw [hc] at hopen; cases hopen
  | some c =>
    rw [hc] at hcovered hopen
    simp only [Option.any_some, Bool.not_eq_true'] at hcovered hopen
    rw [hopen] at hcovered
    cases hcovered

theorem Opening.unique (hlead : Within (fun c => !p c) lead) {i a a' : ℕ}
    (h : Opening text lead p i a) (h' : Opening text lead p i a') : a = a' :=
  Nat.le_antisymm (h.mono hlead h' (Nat.le_refl i)) (h'.mono hlead h (Nat.le_refl i))

variable (lead trail p q) in
def delimited : GroupPattern α := ⟨lead, block p q, trail⟩

variable (text trail p q) in
/-- What a lead that ends at a position finds. -/
def blockAt (a : ℕ) : Option (ℕ × ℕ × ℕ) :=
  (ends text (block p q) a).findSome? fun b => (ends text trail b).head?.map fun c => (a, b, c)

theorem groupAt_delimited (i : ℕ) : groupAt text (delimited lead trail p q) i =
    (ends text lead i).findSome? (blockAt text trail p q) := rfl

theorem blockAt_eq_some {a b c a' : ℕ} : blockAt text trail p q a = some (a', b, c) ↔
    a = a' ∧ text[a]?.any p = true ∧ ∃ e, b = e + 1 ∧ a < e ∧ Closing text trail q e c ∧
      ∀ e' c', a < e' → e' < e → ¬ Closing text trail q e' c' := by
  rw [blockAt, findSome_sorted (sorted_ends_block a)]
  constructor
  · rintro ⟨k, hk, hsome, hfirst⟩
    rw [mem_ends_block] at hk
    obtain ⟨ha, e, hae, he, rfl⟩ := hk
    rw [Option.map_eq_some_iff] at hsome
    obtain ⟨c', hc', heq⟩ := hsome
    cases heq
    refine ⟨rfl, ha, e, rfl, hae, ⟨he, hc'⟩, ?_⟩
    intro e' c'' hae' hlt hclose
    have hnone := hfirst (e' + 1) (mem_ends_block.mpr ⟨ha, e', hae', hclose.1, rfl⟩) (by omega)
    rw [hclose.2] at hnone
    cases hnone
  · rintro ⟨rfl, ha, e, rfl, hae, hclose, hfirst⟩
    refine ⟨e + 1, mem_ends_block.mpr ⟨ha, e, hae, hclose.1, rfl⟩, by rw [hclose.2]; rfl, ?_⟩
    intro j hj hlt
    rw [mem_ends_block] at hj
    obtain ⟨-, e', hae', he', rfl⟩ := hj
    cases hhead : (ends text trail (e' + 1)).head? with
    | none => rfl
    | some c' => exact absurd ⟨he', hhead⟩ (hfirst e' c' hae' (by omega))

theorem blockAt_eq_none {a : ℕ} : blockAt text trail p q a = none ↔
    (text[a]?.any p = true → ∀ e c, a < e → ¬ Closing text trail q e c) := by
  rw [blockAt, List.findSome?_eq_none_iff]
  constructor
  · intro h ha e c hae hclose
    have hnone := h (e + 1) (mem_ends_block.mpr ⟨ha, e, hae, hclose.1, rfl⟩)
    rw [hclose.2] at hnone
    cases hnone
  · intro h b hb
    rw [mem_ends_block] at hb
    obtain ⟨ha, e, hae, he, rfl⟩ := hb
    cases hhead : (ends text trail (e + 1)).head? with
    | none => rfl
    | some c => exact absurd ⟨he, hhead⟩ (h ha e c hae)

/-- The match at a position is the first block from its opening letter. -/
theorem groupAt_eq_some (hlead : Within (fun c => !p c) lead) {i a b c : ℕ} :
    groupAt text (delimited lead trail p q) i = some (a, b, c) ↔
    Opening text lead p i a ∧ ∃ e, b = e + 1 ∧ a < e ∧ Closing text trail q e c ∧
      ∀ e' c', a < e' → e' < e → ¬ Closing text trail q e' c' := by
  have hfound : ∀ {m : ℕ × ℕ × ℕ}, groupAt text (delimited lead trail p q) i = some m →
      Opening text lead p i m.1 ∧ blockAt text trail p q m.1 = some m := by
    intro m h
    rw [groupAt_delimited, List.findSome?_eq_some_iff] at h
    obtain ⟨l₁, a', l₂, hl, hsome, -⟩ := h
    obtain ⟨rfl, ha, -⟩ := blockAt_eq_some.mp hsome
    refine ⟨⟨?_, ha⟩, hsome⟩
    rw [hl]
    simp
  constructor
  · intro h
    obtain ⟨hopen, hsome⟩ := hfound h
    exact ⟨hopen, (blockAt_eq_some.mp hsome).2.2⟩
  · rintro ⟨hopen, hblock⟩
    have hsome := blockAt_eq_some.mpr ⟨rfl, hopen.2, hblock⟩
    cases h : groupAt text (delimited lead trail p q) i with
    | none =>
      rw [groupAt_delimited, List.findSome?_eq_none_iff] at h
      rw [h a hopen.1] at hsome
      cases hsome
    | some m =>
      obtain ⟨hopen', hsome'⟩ := hfound h
      rw [hopen.unique hlead hopen'] at hsome
      rw [← hsome', hsome, ← hopen.unique hlead hopen']

/-- There is none where no block begins. -/
theorem groupAt_eq_none {i : ℕ} : groupAt text (delimited lead trail p q) i = none ↔
    ∀ a e c, Opening text lead p i a → a < e → ¬ Closing text trail q e c := by
  rw [groupAt_delimited, List.findSome?_eq_none_iff]
  constructor
  · intro h a e c hopen hae
    exact blockAt_eq_none.mp (h a hopen.1) hopen.2 e c hae
  · intro h a ha
    exact blockAt_eq_none.mpr fun hp e c hae => h a e c ⟨ha, hp⟩ hae

/- An opening letter that nothing closes leaves nothing to be found behind it. -/
theorem groupAt_unclosed (hlead : Within (fun c => !p c) lead) {i i' a : ℕ}
    (hopen : Opening text lead p i a) (h : groupAt text (delimited lead trail p q) i = none)
    (hi : i ≤ i') : groupAt text (delimited lead trail p q) i' = none := by
  rw [groupAt_eq_none] at h ⊢
  intro a' e c hopen' hae
  have hle := hopen.mono hlead hopen' hi
  exact h a e c hopen (by omega)

theorem groupsFrom_unclosed (hlead : Within (fun c => !p c) lead) {i a : ℕ}
    (hopen : Opening text lead p i a) (h : groupAt text (delimited lead trail p q) i = none) (n i' : ℕ)
    (hi : i ≤ i') : groupsFrom text (delimited lead trail p q) n i' = [] := by
  induction n generalizing i' with
  | zero => rfl
  | succ n ih =>
    rw [groupsFrom, groupAt_unclosed hlead hopen h hi]
    split
    · rfl
    · exact ih (i' + 1) (by omega)

/-! ### Texts that agree -/

theorem Opening.agree (hplain : plain lead = true) {b i a : ℕ} (hb : b ≤ text.length) (hb' : b ≤ text'.length)
    (hagree : ∀ k, k < b → text[k]? = text'[k]?) (h : Opening text lead p i a) (ha : a < b) :
    Opening text' lead p i a := by
  refine ⟨?_, by rw [← hagree a ha]; exact h.2⟩
  exact mem_of_upTo_eq (ends_agree lead (Or.inl hplain) hb hb' hagree i) (by omega) h.1

/- For a trail that has one end at most. -/
theorem Closing.agree (hplain : plain trail = true)
    (hone : ∀ j c c', c ∈ ends text' trail j → c' ∈ ends text' trail j → c = c') {b e c : ℕ}
    (hb : b ≤ text.length) (hb' : b ≤ text'.length) (hagree : ∀ k, k < b → text[k]? = text'[k]?)
    (h : Closing text trail q e c) (hc : c ≤ b) : Closing text' trail q e c := by
  have hmem := List.mem_of_mem_head? h.2
  have hge := ends_ge trail hmem
  have hmem' := mem_of_upTo_eq (ends_agree trail (Or.inl hplain) hb hb' hagree (e + 1)) hc hmem
  refine ⟨by rw [← hagree e (by omega)]; exact h.1, ?_⟩
  cases hl : ends text' trail (e + 1) with
  | nil => rw [hl] at hmem'; cases hmem'
  | cons d l =>
    have hd : d ∈ ends text' trail (e + 1) := by
      rw [hl]
      exact List.mem_cons_self
    rw [hone (e + 1) d c hd hmem']
    rfl

end delimited

end Regex

end ParallelForge.Base
