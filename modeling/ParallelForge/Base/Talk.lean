import ParallelForge.Base.Result
import Mathlib.Data.List.Basic

/-!
# Programs that talk to an outside world

A program asks questions and goes on with whatever it is answered; it keeps a
state of its own and can raise. `Runs` relates it to the list of what was
asked and answered, for every choice of answers. A program built from parts
runs as its parts do, one after the other, so that every fact about a
conversation is read off the parts.
-/

namespace ParallelForge.Base

inductive Talk (Q : Type) (A : Q → Type) (α : Type)
  | done (value : α)
  | ask (question : Q) (next : A question → Talk Q A α)

/-- One question with its answer. -/
abbrev Exchange (Q : Type) (A : Q → Type) := (q : Q) × A q

variable {Q : Type} {A : Q → Type} {σ ε α β : Type}

def Talk.bind (t : Talk Q A α) (f : α → Talk Q A β) : Talk Q A β :=
  match t with
  | .done a => f a
  | .ask q next => .ask q fun x => (next x).bind f

/-- What the program does against a world that answers by the conversation so far. -/
def Talk.play (world : List (Exchange Q A) → (q : Q) → A q) :
    Talk Q A α → List (Exchange Q A) → List (Exchange Q A) × α
  | .done a, sofar => (sofar, a)
  | .ask q next, sofar =>
    let x := world sofar q
    (next x).play world (sofar ++ [⟨q, x⟩])

/-- The conversation `tr` ends with `a`. -/
def Talk.Leads : Talk Q A α → List (Exchange Q A) → α → Prop
  | .done b, tr, a => tr = [] ∧ a = b
  | .ask q next, tr, a => ∃ x rest, tr = ⟨q, x⟩ :: rest ∧ (next x).Leads rest a

theorem Talk.leads_bind (t : Talk Q A α) (f : α → Talk Q A β) (tr : List (Exchange Q A)) (b : β) :
    (t.bind f).Leads tr b ↔ ∃ a tr₁ tr₂, t.Leads tr₁ a ∧ (f a).Leads tr₂ b ∧ tr = tr₁ ++ tr₂ := by
  induction t generalizing tr with
  | done a =>
    simp only [bind, Leads]
    constructor
    · intro h
      exact ⟨a, [], tr, ⟨rfl, rfl⟩, h, rfl⟩
    · rintro ⟨a', tr₁, tr₂, ⟨rfl, rfl⟩, h, rfl⟩
      exact h
  | ask q next ih =>
    simp only [bind, Leads]
    constructor
    · rintro ⟨x, rest, rfl, h⟩
      obtain ⟨a, tr₁, tr₂, h₁, h₂, rfl⟩ := (ih x rest).mp h
      exact ⟨a, ⟨q, x⟩ :: tr₁, tr₂, ⟨x, tr₁, rfl, h₁⟩, h₂, rfl⟩
    · rintro ⟨a, tr₁, tr₂, ⟨x, rest, rfl, h₁⟩, h₂, rfl⟩
      exact ⟨x, rest ++ tr₂, rfl, (ih x _).mpr ⟨a, rest, tr₂, h₁, h₂, rfl⟩⟩

/- A world always gets an end, and what it got is one of the conversations. -/
theorem Talk.leads_play (world : List (Exchange Q A) → (q : Q) → A q) (t : Talk Q A α)
    (sofar : List (Exchange Q A)) :
    ∃ tr, (t.play world sofar).1 = sofar ++ tr ∧ t.Leads tr (t.play world sofar).2 := by
  induction t generalizing sofar with
  | done a => exact ⟨[], (List.append_nil sofar).symm, rfl, rfl⟩
  | ask q next ih =>
    obtain ⟨tr, htr, hl⟩ := ih (world sofar q) (sofar ++ [⟨q, world sofar q⟩])
    refine ⟨⟨q, world sofar q⟩ :: tr, ?_, world sofar q, tr, rfl, hl⟩
    simp only [play, htr, List.append_assoc, List.singleton_append]

/-- A program with a state of its own that returns or raises. -/
def Talking (Q : Type) (A : Q → Type) (σ ε α : Type) := σ → Talk Q A (Except ε α × σ)

namespace Talking

def pure (a : α) : Talking Q A σ ε α := fun s => .done (.ok a, s)

def raise (e : ε) : Talking Q A σ ε α := fun s => .done (.error e, s)

/-- Goes on by `after` with what the first part returned or raised. -/
def follow (p : Talking Q A σ ε α) (after : Except ε α → Talking Q A σ ε β) : Talking Q A σ ε β :=
  fun s => (p s).bind fun r => after r.1 r.2

def bind (p : Talking Q A σ ε α) (f : α → Talking Q A σ ε β) : Talking Q A σ ε β :=
  follow p fun
    | .ok a => f a
    | .error e => raise e

instance instMonad : Monad (Talking Q A σ ε) where
  pure := pure
  bind := bind

/-- `try` with a handler for some of the exceptions and an `else`. -/
def tryElse (p : Talking Q A σ ε α) (handler : ε → Option (Talking Q A σ ε β))
    (next : α → Talking Q A σ ε β) : Talking Q A σ ε β :=
  follow p fun
    | .ok a => next a
    | .error e => (handler e).getD (raise e)

def ask (q : Q) : Talking Q A σ ε (A q) := fun s => .ask q fun x => .done (.ok x, s)

def get : Talking Q A σ ε σ := fun s => .done (.ok s, s)

def modify (f : σ → σ) : Talking Q A σ ε Unit := fun s => .done (.ok (), f s)

def lift (r : Except ε α) : Talking Q A σ ε α := fun s => .done (r, s)

/-- From `s` the conversation `tr` gives `r` and leaves `s'`. -/
def Runs (p : Talking Q A σ ε α) (s : σ) (tr : List (Exchange Q A)) (r : Except ε α) (s' : σ) :
    Prop := (p s).Leads tr (r, s')

variable {s s' : σ} {tr : List (Exchange Q A)}

@[simp] theorem runs_pure (a : α) (r : Except ε α) :
    Runs (Pure.pure a : Talking Q A σ ε α) s tr r s' ↔ tr = [] ∧ r = .ok a ∧ s' = s := by
  simp [Runs, Pure.pure, pure, Talk.Leads]

@[simp] theorem runs_raise (e : ε) (r : Except ε α) :
    Runs (raise e : Talking Q A σ ε α) s tr r s' ↔ tr = [] ∧ r = .error e ∧ s' = s := by
  simp [Runs, raise, Talk.Leads]

@[simp] theorem runs_lift (x r : Except ε α) :
    Runs (lift x : Talking Q A σ ε α) s tr r s' ↔ tr = [] ∧ r = x ∧ s' = s := by
  simp [Runs, lift, Talk.Leads]

@[simp] theorem runs_get (r : Except ε σ) :
    Runs (get : Talking Q A σ ε σ) s tr r s' ↔ tr = [] ∧ r = .ok s ∧ s' = s := by
  simp [Runs, get, Talk.Leads]

@[simp] theorem runs_modify (f : σ → σ) (r : Except ε Unit) :
    Runs (modify f : Talking Q A σ ε Unit) s tr r s' ↔ tr = [] ∧ r = .ok () ∧ s' = f s := by
  simp [Runs, modify, Talk.Leads]

@[simp] theorem runs_ask (q : Q) (r : Except ε (A q)) :
    Runs (ask q : Talking Q A σ ε (A q)) s tr r s' ↔ ∃ x, tr = [⟨q, x⟩] ∧ r = .ok x ∧ s' = s := by
  simp only [Runs, ask, Talk.Leads]
  constructor
  · rintro ⟨x, rest, rfl, rfl, he⟩
    cases he
    exact ⟨x, rfl, rfl, rfl⟩
  · rintro ⟨x, rfl, rfl, rfl⟩
    exact ⟨x, [], rfl, rfl, rfl⟩

theorem runs_follow (p : Talking Q A σ ε α) (after : Except ε α → Talking Q A σ ε β)
    (r : Except ε β) :
    Runs (follow p after) s tr r s' ↔ ∃ x s₁ tr₁ tr₂,
      Runs p s tr₁ x s₁ ∧ Runs (after x) s₁ tr₂ r s' ∧ tr = tr₁ ++ tr₂ := by
  simp only [Runs, follow, Talk.leads_bind]
  constructor
  · rintro ⟨⟨x, s₁⟩, tr₁, tr₂, h₁, h₂, rfl⟩
    exact ⟨x, s₁, tr₁, tr₂, h₁, h₂, rfl⟩
  · rintro ⟨x, s₁, tr₁, tr₂, h₁, h₂, rfl⟩
    exact ⟨⟨x, s₁⟩, tr₁, tr₂, h₁, h₂, rfl⟩

/- A sequence raises in its first part or goes on to the second. -/
theorem runs_bind (p : Talking Q A σ ε α) (f : α → Talking Q A σ ε β) (r : Except ε β) :
    Runs (p >>= f) s tr r s' ↔
      (∃ e, Runs p s tr (.error e) s' ∧ r = .error e) ∨
      ∃ a s₁ tr₁ tr₂, Runs p s tr₁ (.ok a) s₁ ∧ Runs (f a) s₁ tr₂ r s' ∧ tr = tr₁ ++ tr₂ := by
  have hb : (p >>= f) = follow p fun
      | .ok a => f a
      | .error e => raise e := rfl
  rw [hb, runs_follow]
  constructor
  · rintro ⟨x, s₁, tr₁, tr₂, h₁, h₂, rfl⟩
    cases x with
    | ok a => exact .inr ⟨a, s₁, tr₁, tr₂, h₁, h₂, rfl⟩
    | error e =>
      simp only [runs_raise] at h₂
      obtain ⟨rfl, rfl, rfl⟩ := h₂
      exact .inl ⟨e, by simpa using h₁, rfl⟩
  · rintro (⟨e, h, rfl⟩ | ⟨a, s₁, tr₁, tr₂, h₁, h₂, rfl⟩)
    · exact ⟨.error e, s', tr, [], h, by simp, by simp⟩
    · exact ⟨.ok a, s₁, tr₁, tr₂, h₁, h₂, rfl⟩

section first
variable (s s' : σ) (tr : List (Exchange Q A)) (r : Except ε β)

theorem runs_get_bind (f : σ → Talking Q A σ ε β) :
    Runs (get >>= f) s tr r s' ↔ Runs (f s) s tr r s' := by
  rw [runs_bind]
  simp

theorem runs_modify_bind (g : σ → σ) (f : Unit → Talking Q A σ ε β) :
    Runs (modify g >>= f) s tr r s' ↔ Runs (f ()) (g s) tr r s' := by
  rw [runs_bind]
  constructor
  · rintro (⟨e, h, -⟩ | ⟨⟨⟩, s₁, tr₁, tr₂, h₁, h₂, rfl⟩)
    · simp at h
    · obtain ⟨rfl, -, rfl⟩ := (runs_modify _ _).mp h₁
      exact h₂
  · intro h
    exact .inr ⟨(), g s, [], tr, by simp, h, rfl⟩

theorem runs_lift_bind (x : Except ε α) (f : α → Talking Q A σ ε β) :
    Runs (lift x >>= f) s tr r s' ↔
      (∃ e, x = .error e ∧ tr = [] ∧ r = .error e ∧ s' = s) ∨
      ∃ a, x = .ok a ∧ Runs (f a) s tr r s' := by
  rw [runs_bind]
  cases x with
  | ok a => simp
  | error e =>
    constructor
    · rintro (⟨e', h, rfl⟩ | ⟨a, s₁, tr₁, tr₂, h, -⟩)
      · obtain ⟨rfl, he, rfl⟩ := (runs_lift _ _).mp h
        exact .inl ⟨e', he.symm, rfl, rfl, rfl⟩
      · simp at h
    · rintro (⟨e', he, rfl, rfl, rfl⟩ | ⟨a, ha, -⟩)
      · exact .inl ⟨e', by simp [he], rfl⟩
      · cases ha

theorem runs_ask_bind (q : Q) (f : A q → Talking Q A σ ε β) :
    Runs (ask q >>= f) s tr r s' ↔ ∃ x rest, tr = ⟨q, x⟩ :: rest ∧ Runs (f x) s rest r s' := by
  rw [runs_bind]
  constructor
  · rintro (⟨e, h, -⟩ | ⟨a, s₁, tr₁, tr₂, h₁, h₂, rfl⟩)
    · simp at h
    · simp only [runs_ask, Except.ok.injEq] at h₁
      obtain ⟨x, rfl, rfl, rfl⟩ := h₁
      exact ⟨a, tr₂, rfl, h₂⟩
  · rintro ⟨x, rest, rfl, h⟩
    exact .inr ⟨x, s, [⟨q, x⟩], rest, by simp, h, rfl⟩

/- A sequence returns when both parts do. -/
theorem runs_bind_ok (p : Talking Q A σ ε α) (f : α → Talking Q A σ ε β) (b : β) :
    Runs (p >>= f) s tr (.ok b) s' ↔ ∃ a s₁ tr₁ tr₂,
      Runs p s tr₁ (.ok a) s₁ ∧ Runs (f a) s₁ tr₂ (.ok b) s' ∧ tr = tr₁ ++ tr₂ := by
  rw [runs_bind]
  simp

end first

theorem runs_tryElse (p : Talking Q A σ ε α) (handler : ε → Option (Talking Q A σ ε β))
    (next : α → Talking Q A σ ε β) (r : Except ε β) :
    Runs (tryElse p handler next) s tr r s' ↔
      (∃ e, Runs p s tr (.error e) s' ∧ handler e = none ∧ r = .error e) ∨
      (∃ e q s₁ tr₁ tr₂, Runs p s tr₁ (.error e) s₁ ∧ handler e = some q ∧ Runs q s₁ tr₂ r s' ∧
        tr = tr₁ ++ tr₂) ∨
      ∃ a s₁ tr₁ tr₂, Runs p s tr₁ (.ok a) s₁ ∧ Runs (next a) s₁ tr₂ r s' ∧ tr = tr₁ ++ tr₂ := by
  rw [tryElse, runs_follow]
  constructor
  · rintro ⟨x, s₁, tr₁, tr₂, h₁, h₂, rfl⟩
    cases x with
    | ok a => exact .inr (.inr ⟨a, s₁, tr₁, tr₂, h₁, h₂, rfl⟩)
    | error e =>
      cases hh : handler e with
      | some q => exact .inr (.inl ⟨e, q, s₁, tr₁, tr₂, h₁, hh, by simpa [hh] using h₂, rfl⟩)
      | none =>
        simp only [hh, Option.getD_none, runs_raise] at h₂
        obtain ⟨rfl, rfl, rfl⟩ := h₂
        exact .inl ⟨e, by simpa using h₁, hh, rfl⟩
  · rintro (⟨e, h, hh, rfl⟩ | ⟨e, q, s₁, tr₁, tr₂, h₁, hh, h₂, rfl⟩ | ⟨a, s₁, tr₁, tr₂, h₁, h₂, rfl⟩)
    · exact ⟨.error e, s', tr, [], h, by simp [hh], by simp⟩
    · exact ⟨.error e, s₁, tr₁, tr₂, h₁, by simpa [hh] using h₂, rfl⟩
    · exact ⟨.ok a, s₁, tr₁, tr₂, h₁, h₂, rfl⟩

/-- Every exchange of every conversation is one of the `good`, and every
exception that ends one is one of the `raises`. -/
def Within (good : Exchange Q A → Prop) (raises : ε → Prop) (p : Talking Q A σ ε α) : Prop :=
  ∀ s tr r s', Runs p s tr r s' → (∀ x ∈ tr, good x) ∧ Raises raises r

variable {good : Exchange Q A → Prop} {raises : ε → Prop}

theorem within_pure (a : α) : Within good raises (Pure.pure a : Talking Q A σ ε α) := by
  intro s tr r s' h
  simp only [runs_pure] at h
  obtain ⟨rfl, rfl, -⟩ := h
  exact ⟨by simp, raises_ok a⟩

theorem within_raise (e : ε) (he : raises e) :
    Within good raises (raise e : Talking Q A σ ε α) := by
  intro s tr r s' h
  simp only [runs_raise] at h
  obtain ⟨rfl, rfl, -⟩ := h
  exact ⟨by simp, raises_error e he⟩

theorem within_lift (y : Except ε α) (hy : Raises raises y) :
    Within good raises (lift y : Talking Q A σ ε α) := by
  intro s tr r s' h
  simp only [runs_lift] at h
  obtain ⟨rfl, rfl, -⟩ := h
  exact ⟨by simp, hy⟩

theorem within_ask (q : Q) (h : ∀ x, good ⟨q, x⟩) :
    Within good raises (ask q : Talking Q A σ ε (A q)) := by
  intro s tr r s' hr
  simp only [runs_ask] at hr
  obtain ⟨x, rfl, rfl, -⟩ := hr
  refine ⟨fun y hy => ?_, raises_ok x⟩
  rw [List.mem_singleton] at hy
  rw [hy]
  exact h x

theorem within_bind (p : Talking Q A σ ε α) (f : α → Talking Q A σ ε β)
    (hp : Within good raises p) (hf : ∀ a, Within good raises (f a)) :
    Within good raises (p >>= f) := by
  intro s tr r s' h
  rcases (runs_bind p f r).mp h with ⟨e, h₁, rfl⟩ | ⟨a, s₁, tr₁, tr₂, h₁, h₂, rfl⟩
  · have hw := hp _ _ _ _ h₁
    exact ⟨hw.1, raises_error e (hw.2 e rfl)⟩
  · have hw₁ := hp _ _ _ _ h₁
    have hw₂ := hf a _ _ _ _ h₂
    refine ⟨fun x hx => ?_, hw₂.2⟩
    rcases List.mem_append.mp hx with hx | hx
    · exact hw₁.1 x hx
    · exact hw₂.1 x hx

/- The exceptions a handler takes need not be among the `raises`. -/
theorem within_tryElse (p : Talking Q A σ ε α) (handler : ε → Option (Talking Q A σ ε β))
    (next : α → Talking Q A σ ε β) (caught : ε → Prop) (hp : Within good caught p)
    (hpass : ∀ e, caught e → handler e = none → raises e)
    (hh : ∀ e q, handler e = some q → Within good raises q)
    (hn : ∀ a, Within good raises (next a)) :
    Within good raises (tryElse p handler next) := by
  intro s tr r s' h
  rcases (runs_tryElse p handler next r).mp h with
    ⟨e, h₁, he, rfl⟩ | ⟨e, q, s₁, tr₁, tr₂, h₁, hq, h₂, rfl⟩ | ⟨a, s₁, tr₁, tr₂, h₁, h₂, rfl⟩
  · have hw := hp _ _ _ _ h₁
    exact ⟨hw.1, raises_error e (hpass e (hw.2 e rfl) he)⟩
  · have hw₁ := hp _ _ _ _ h₁
    have hw₂ := hh e q hq _ _ _ _ h₂
    refine ⟨fun x hx => ?_, hw₂.2⟩
    rcases List.mem_append.mp hx with hx | hx
    · exact hw₁.1 x hx
    · exact hw₂.1 x hx
  · have hw₁ := hp _ _ _ _ h₁
    have hw₂ := hn a _ _ _ _ h₂
    refine ⟨fun x hx => ?_, hw₂.2⟩
    rcases List.mem_append.mp hx with hx | hx
    · exact hw₁.1 x hx
    · exact hw₂.1 x hx

/- Against a world that answers everything the program comes to an end. -/
theorem runs_play (p : Talking Q A σ ε α) (world : List (Exchange Q A) → (q : Q) → A q) (s : σ) :
    Runs p s ((p s).play world []).1 ((p s).play world []).2.1 ((p s).play world []).2.2 := by
  obtain ⟨tr, htr, hl⟩ := (p s).leads_play world []
  rw [htr, List.nil_append]
  exact hl

end Talking

end ParallelForge.Base
