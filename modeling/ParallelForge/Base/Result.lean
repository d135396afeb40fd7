import Mathlib.Logic.Basic
import Mathlib.Data.List.Forall2
import Mathlib.Data.List.Perm.Basic

/-!
# Fallible steps

A computation that raises is an `Except`. A sequence of steps succeeds exactly
when each step does, which is how every proof takes a validator apart.
-/

namespace ParallelForge.Base
variable {ε α β : Type}

theorem bind_eq_ok (x : Except ε α) (f : α → Except ε β) (b : β) :
    (x >>= f) = .ok b ↔ ∃ a, x = .ok a ∧ f a = .ok b := by
  cases x with
  | error e => simp [bind, Except.bind]
  | ok a => simp [bind, Except.bind]

theorem bind_unit_eq_ok (x : Except ε Unit) (f : Unit → Except ε β) (b : β) :
    (x >>= f) = .ok b ↔ x = .ok () ∧ f () = .ok b := by
  rw [bind_eq_ok]
  constructor
  · rintro ⟨u, hx, hf⟩
    exact ⟨hx, hf⟩
  · rintro ⟨hx, hf⟩
    exact ⟨(), hx, hf⟩

theorem map_eq_ok (x : Except ε α) (f : α → β) (b : β) :
    x.map f = .ok b ↔ ∃ a, x = .ok a ∧ f a = b := by
  cases x with
  | error e => simp [Except.map]
  | ok a => simp [Except.map]

theorem mapError_eq_ok {δ : Type} (x : Except ε α) (f : ε → δ) (a : α) :
    x.mapError f = .ok a ↔ x = .ok a := by
  cases x with
  | error e =>
    constructor
    · intro h; cases h
    · intro h; cases h
  | ok b =>
    constructor
    · intro h; cases h; rfl
    · intro h; cases h; rfl

/-- A guard: refuse with `e` unless the condition holds. -/
def require (c : Prop) [Decidable c] (e : ε) : Except ε Unit := if c then .ok () else .error e

@[simp] theorem require_eq_ok (c : Prop) [Decidable c] (e : ε) (u : Unit) :
    require c e = .ok u ↔ c := by
  unfold require
  by_cases h : c <;> simp [h]

theorem require_bind_eq_ok (c : Prop) [Decidable c] (e : ε) (f : Unit → Except ε β) (b : β) :
    (require c e >>= f) = .ok b ↔ c ∧ f () = .ok b := by
  rw [bind_unit_eq_ok, require_eq_ok]

/-- A lookup that raises when there is nothing. -/
def orRaise (o : Option α) (e : ε) : Except ε α :=
  match o with
  | some a => .ok a
  | none => .error e

@[simp] theorem orRaise_eq_ok (o : Option α) (e : ε) (a : α) :
    orRaise o e = .ok a ↔ o = some a := by
  cases o with
  | none => simp [orRaise]
  | some b => simp [orRaise]

/- A loop that collects its results succeeds when every turn does. -/
theorem mapM_eq_ok (f : α → Except ε β) (l : List α) (l' : List β) :
    l.mapM f = .ok l' ↔ List.Forall₂ (fun a b => f a = .ok b) l l' := by
  induction l generalizing l' with
  | nil =>
    rw [List.mapM_nil, List.forall₂_nil_left_iff]
    constructor
    · intro h
      cases h
      rfl
    · rintro rfl
      rfl
  | cons a l ih =>
    rw [List.mapM_cons, bind_eq_ok, List.forall₂_cons_left_iff]
    constructor
    · rintro ⟨b, hb, h⟩
      rw [bind_eq_ok] at h
      obtain ⟨bs, hbs, hout⟩ := h
      cases hout
      exact ⟨b, bs, hb, (ih bs).mp hbs, rfl⟩
    · rintro ⟨b, bs, hb, hbs, rfl⟩
      refine ⟨b, hb, ?_⟩
      rw [bind_eq_ok]
      exact ⟨bs, (ih bs).mpr hbs, rfl⟩

theorem foldlM_cons_ok {f : β → α → Except ε β} {s s' : β} {a : α} (h : f s a = .ok s') (l : List α) :
    (a :: l).foldlM f s = l.foldlM f s' := by
  rw [List.foldlM_cons, h]
  rfl

theorem foldlM_append_ok {f : β → α → Except ε β} {s s' : β} {l : List α} (h : l.foldlM f s = .ok s')
    (m : List α) : (l ++ m).foldlM f s = m.foldlM f s' := by
  rw [List.foldlM_append, h]
  rfl

/- The results come in the order of the turns. -/
theorem mapM_perm {f : α → Except ε β} {l m : List α} {bs : List β} (hperm : l.Perm m) (h : l.mapM f = .ok bs) :
    ∃ cs, m.mapM f = .ok cs ∧ bs.Perm cs := by
  obtain ⟨cs, hcs, hsame⟩ := List.perm_comp_forall₂ hperm.symm ((mapM_eq_ok f l bs).mp h)
  exact ⟨cs, (mapM_eq_ok f m cs).mpr hcs, hsame.symm⟩

theorem forall₂_exists {R : α → β → Prop} {l : List α} {l' : List β} (h : List.Forall₂ R l l')
    (b : β) (hb : b ∈ l') : ∃ a ∈ l, R a b := by
  induction h with
  | nil => cases hb
  | cons ha _ ih =>
    rcases List.mem_cons.mp hb with heq | hb
    · exact ⟨_, List.mem_cons_self, heq ▸ ha⟩
    · obtain ⟨a, hmem, hfa⟩ := ih hb
      exact ⟨a, List.mem_cons_of_mem _ hmem, hfa⟩

/- Each result is that of a turn. -/
theorem mem_of_mapM_eq_ok (f : α → Except ε β) (l : List α) (l' : List β) (h : l.mapM f = .ok l')
    (b : β) (hb : b ∈ l') : ∃ a ∈ l, f a = .ok b :=
  forall₂_exists ((mapM_eq_ok f l l').mp h) b hb

/-- The exceptions a computation can raise. -/
def Raises (p : ε → Prop) (x : Except ε α) : Prop := ∀ e, x = .error e → p e

section raises
variable {p : ε → Prop}

theorem raises_ok (a : α) : Raises p (.ok a : Except ε α) := by
  intro e h
  cases h

theorem raises_error (e : ε) (h : p e) : Raises p (.error e : Except ε α) := by
  intro e' he
  cases he
  exact h

theorem raises_mono (q : ε → Prop) (x : Except ε α) (h : Raises p x) (hpq : ∀ e, p e → q e) :
    Raises q x := fun e he => hpq e (h e he)

theorem raises_bind (x : Except ε α) (f : α → Except ε β) (hx : Raises p x)
    (hf : ∀ a, Raises p (f a)) : Raises p (x >>= f) := by
  cases x with
  | ok a => exact hf a
  | error e => exact raises_error e (hx e rfl)

theorem raises_map (x : Except ε α) (f : α → β) (hx : Raises p x) : Raises p (x.map f) := by
  cases x with
  | ok a => exact raises_ok (f a)
  | error e => exact raises_error e (hx e rfl)

theorem raises_require (c : Prop) [Decidable c] (e : ε) (h : p e) : Raises p (require c e) := by
  unfold require
  split
  · exact raises_ok ()
  · exact raises_error e h

theorem raises_orRaise (o : Option α) (e : ε) (h : p e) : Raises p (orRaise o e) := by
  cases o with
  | none => exact raises_error e h
  | some a => exact raises_ok a

end raises

theorem forM_eq_ok {α ε : Type} (l : List α) (f : α → Except ε Unit) :
    l.forM f = .ok () ↔ ∀ a ∈ l, f a = .ok () := by
  induction l with
  | nil => simp [List.forM, pure, Except.pure]
  | cons a l ih =>
    show (f a >>= fun _ => l.forM f) = .ok () ↔ _
    rw [bind_unit_eq_ok, List.forall_mem_cons, ih]

end ParallelForge.Base
