import ParallelForge.Agents.GeminiProtocol
import ParallelForge.Base.Objects
import Mathlib.Logic.Relation
import Mathlib.Data.List.Nodup

/-!
# Authority for effects

What the protocol keeps beside its frames: grants of an effect to a native
call identity, offers of one, errands of the broker and the callers that wait
for them. The moves say when each may appear; every order of moves leaves one
errand for a grant and one grant for an offer.
-/

namespace ParallelForge.Agents.Gemini
open Base

structure Grant where
  nativeId : Str
  name : Str
  arguments : Members
  errand : Option ℕ
  uncertain : Bool

structure Offer where
  name : Str
  arguments : Members
  grant : Option ℕ

structure Errand where
  grant : ℕ
  call : ProviderToolCall
  scheduled : Bool

structure Caller where
  transportId : Str
  waiting : Option ℕ

def Grant.hold (n : ℕ) (g : Grant) : Grant := { g with errand := some n }
def Grant.doubt (g : Grant) : Grant := { g with uncertain := true }
def Offer.join (o : ℕ) (offer : Offer) : Offer := { offer with grant := some o }
def Errand.leave (e : Errand) : Errand := { e with scheduled := false }
def Caller.await (n : Option ℕ) (c : Caller) : Caller := { c with waiting := n }

structure Authority where
  grants : List Grant
  offers : List Offer
  errands : List Errand
  callers : List Caller
  log : List Event

def Authority.init : Authority := ⟨[], [], [], [], []⟩

def Event.invokedNative : Event → Option Str
  | .invoked nativeId _ => some nativeId
  | _ => none

inductive Move (limit : ℕ) (a : Authority) : Authority → Prop
  | create (nativeId name : Str) (arguments : Members)
      (hnew : ∀ g ∈ a.grants, g.nativeId ≠ nativeId) (hecho : .echoed nativeId ∉ a.log)
      (hroom : a.grants.length < limit) :
      Move limit a { a with grants := a.grants ++ [⟨nativeId, name, arguments, none, false⟩] }
  | attach (p o : ℕ) (offer : Offer) (grant : Grant) (hp : a.offers[p]? = some offer)
      (ho : a.grants[o]? = some grant) (hfree : ∀ o' ∈ offer.grant, o' = o)
      (hname : grant.name = offer.name)
      (hargs : sameArguments grant.arguments offer.arguments = true) :
      Move limit a { a with
        offers := a.offers.modify p (Offer.join o)
        log := .bound p grant.nativeId offer.name offer.arguments :: a.log }
  | echo (nativeId : Str) (hnew : ∀ g ∈ a.grants, g.nativeId ≠ nativeId) :
      Move limit a { a with log := .echoed nativeId :: a.log }
  | offer (name : Str) (arguments : Members) :
      Move limit a { a with offers := a.offers ++ [⟨name, arguments, none⟩] }
  | arrive (transportId : Str) (hnew : ∀ c ∈ a.callers, c.transportId ≠ transportId) :
      Move limit a { a with callers := a.callers ++ [⟨transportId, none⟩] }
  | schedule (i o : ℕ) (grant : Grant) (call : ProviderToolCall) (hi : i < a.callers.length)
      (ho : a.grants[o]? = some grant) (hsure : grant.uncertain = false)
      (hnone : grant.errand = none) (hname : call.name = grant.name)
      (hargs : call.arguments = grant.arguments) :
      Move limit a { a with
        errands := a.errands ++ [⟨o, call, true⟩]
        grants := a.grants.modify o (Grant.hold a.errands.length)
        log := .scheduled i o :: a.log }
  | wait (i n : ℕ) (errand : Errand) (grant : Grant) (hn : a.errands[n]? = some errand)
      (hg : a.grants[errand.grant]? = some grant) (hsure : grant.uncertain = false) :
      Move limit a { a with callers := a.callers.modify i (Caller.await (some n)) }
  | answer (i o : ℕ) (grant : Grant) (hi : i < a.callers.length) (ho : a.grants[o]? = some grant)
      (hsure : grant.uncertain = false) : Move limit a { a with log := .obtained i o :: a.log }
  | collect (i n : ℕ) (caller : Caller) (errand : Errand) (hi : a.callers[i]? = some caller)
      (hw : caller.waiting = some n) (hn : a.errands[n]? = some errand) :
      Move limit a { a with log := .obtained i errand.grant :: a.log }
  | leave (i : ℕ) :
      Move limit a { a with callers := a.callers.modify i (Caller.await none) }
  | doubt (o : ℕ) :
      Move limit a { a with grants := a.grants.modify o Grant.doubt }
  | invoke (n : ℕ) (errand : Errand) (grant : Grant) (hn : a.errands[n]? = some errand)
      (hs : errand.scheduled = true) (hg : a.grants[errand.grant]? = some grant) :
      Move limit a { a with
        errands := a.errands.modify n Errand.leave
        log := .invoked grant.nativeId errand.call :: a.log }
  | drop (n : ℕ) :
      Move limit a { a with errands := a.errands.modify n Errand.leave }

/-- Moves, one after the other. -/
abbrev Moves (limit : ℕ) : Authority → Authority → Prop := Relation.ReflTransGen (Move limit)

structure AuthorityInv (limit : ℕ) (a : Authority) : Prop where
  natives : (a.grants.map Grant.nativeId).Nodup
  few : a.grants.length ≤ limit
  apart : ∀ nativeId, .echoed nativeId ∈ a.log → ∀ g ∈ a.grants, g.nativeId ≠ nativeId
  bound : ∀ p nativeId name arguments, .bound p nativeId name arguments ∈ a.log →
    ∃ offer o grant, a.offers[p]? = some offer ∧ offer.grant = some o ∧
      a.grants[o]? = some grant ∧ grant.nativeId = nativeId ∧ grant.name = name ∧
      sameArguments grant.arguments arguments = true
  errands : ∀ (n : ℕ) (e : Errand), a.errands[n]? = some e → ∃ g : Grant,
    a.grants[e.grant]? = some g ∧ g.errand = some n ∧ e.call.name = g.name ∧
    e.call.arguments = g.arguments
  invoked : ∀ nativeId call, .invoked nativeId call ∈ a.log → ∃ (n : ℕ) (e : Errand) (g : Grant),
    a.errands[n]? = some e ∧
    e.scheduled = false ∧ e.call = call ∧ a.grants[e.grant]? = some g ∧ g.nativeId = nativeId
  once : (a.log.filterMap Event.invokedNative).Nodup
  known : ∀ i o, .obtained i o ∈ a.log ∨ .scheduled i o ∈ a.log → i < a.callers.length
  idents : (a.callers.map Caller.transportId).Nodup

theorem authorityInv_init (limit : ℕ) : AuthorityInv limit Authority.init where
  natives := List.nodup_nil
  few := Nat.zero_le limit
  apart _ h := by cases h
  bound _ _ _ _ h := by cases h
  errands n e h := by simp [Authority.init] at h
  invoked _ _ h := by cases h
  once := List.nodup_nil
  known _ _ h := by rcases h with h | h <;> cases h
  idents := List.nodup_nil

/-- Every grant stays what it was, with its errand once it has one. -/
def KeepsGrants (gs gs' : List Grant) : Prop :=
  ∀ (o : ℕ) (g : Grant), gs[o]? = some g → ∃ g' : Grant, gs'[o]? = some g' ∧
    g'.nativeId = g.nativeId ∧ g'.name = g.name ∧ g'.arguments = g.arguments ∧
    ∀ n, g.errand = some n → g'.errand = some n

def KeepsErrands (es es' : List Errand) : Prop :=
  ∀ (n : ℕ) (e : Errand), es[n]? = some e → ∃ e' : Errand, es'[n]? = some e' ∧
    e'.grant = e.grant ∧ e'.call = e.call ∧ (e.scheduled = false → e'.scheduled = false)

theorem keepsGrants_refl (gs : List Grant) : KeepsGrants gs gs :=
  fun _ g h => ⟨g, h, rfl, rfl, rfl, fun _ hn => hn⟩

theorem keepsErrands_refl (es : List Errand) : KeepsErrands es es :=
  fun _ e h => ⟨e, h, rfl, rfl, fun hs => hs⟩

theorem keepsGrants_append (gs : List Grant) (g : Grant) : KeepsGrants gs (gs ++ [g]) :=
  fun o g' h => ⟨g', append_at gs g g' o h, rfl, rfl, rfl, fun _ hn => hn⟩

theorem keepsErrands_append (es : List Errand) (e : Errand) : KeepsErrands es (es ++ [e]) :=
  fun n e' h => ⟨e', append_at es e e' n h, rfl, rfl, fun hs => hs⟩

theorem keepsGrants_doubt (gs : List Grant) (o : ℕ) :
    KeepsGrants gs (gs.modify o Grant.doubt) := by
  intro o' g h
  refine ⟨_, modify_at gs o o' _ g h, ?_⟩
  split
  · exact ⟨rfl, rfl, rfl, fun _ hn => hn⟩
  · exact ⟨rfl, rfl, rfl, fun _ hn => hn⟩

theorem keepsGrants_schedule (gs : List Grant) (o n : ℕ) (grant : Grant) (ho : gs[o]? = some grant)
    (hnone : grant.errand = none) :
    KeepsGrants gs (gs.modify o (Grant.hold n)) := by
  intro o' g h
  refine ⟨_, modify_at gs o o' _ g h, ?_⟩
  split
  · next he =>
    subst he
    rw [ho] at h
    cases h
    refine ⟨rfl, rfl, rfl, fun m hm => ?_⟩
    rw [hnone] at hm
    cases hm
  · exact ⟨rfl, rfl, rfl, fun _ hn => hn⟩

theorem keepsErrands_started (es : List Errand) (n : ℕ) :
    KeepsErrands es (es.modify n Errand.leave) := by
  intro n' e h
  refine ⟨_, modify_at es n n' _ e h, ?_⟩
  split
  · exact ⟨rfl, rfl, fun _ => rfl⟩
  · exact ⟨rfl, rfl, fun hs => hs⟩

section transfer
variable {limit : ℕ} {a : Authority}

/- The clauses that speak of grants and errands survive what keeps them. -/
theorem bound_keeps (hi : AuthorityInv limit a) (gs : List Grant) (hg : KeepsGrants a.grants gs)
    (p : ℕ) (nativeId name : Str) (arguments : Members)
    (h : .bound p nativeId name arguments ∈ a.log) :
    ∃ (offer : Offer) (o : ℕ) (grant : Grant), a.offers[p]? = some offer ∧ offer.grant = some o ∧
      gs[o]? = some grant ∧ grant.nativeId = nativeId ∧ grant.name = name ∧
      sameArguments grant.arguments arguments = true := by
  obtain ⟨offer, o, grant, hp, ho, hgr, hn, hname, hargs⟩ := hi.bound p nativeId name arguments h
  obtain ⟨grant', hgr', hn', hname', hargs', -⟩ := hg o grant hgr
  exact ⟨offer, o, grant', hp, ho, hgr', hn'.trans hn, hname'.trans hname, by rw [hargs']; exact hargs⟩

theorem errands_keeps (hi : AuthorityInv limit a) (gs : List Grant)
    (hg : KeepsGrants a.grants gs) (n : ℕ) (e : Errand) (h : a.errands[n]? = some e) :
    ∃ g : Grant, gs[e.grant]? = some g ∧ g.errand = some n ∧ e.call.name = g.name ∧
      e.call.arguments = g.arguments := by
  obtain ⟨g, hgr, hn, hname, hargs⟩ := hi.errands n e h
  obtain ⟨g', hgr', -, hname', hargs', herr⟩ := hg e.grant g hgr
  exact ⟨g', hgr', herr n hn, hname.trans hname'.symm, hargs.trans hargs'.symm⟩

theorem invoked_keeps (hi : AuthorityInv limit a) (gs : List Grant) (es : List Errand)
    (hg : KeepsGrants a.grants gs) (he : KeepsErrands a.errands es) (nativeId : Str)
    (call : ProviderToolCall) (h : .invoked nativeId call ∈ a.log) :
    ∃ (n : ℕ) (e : Errand) (g : Grant), es[n]? = some e ∧ e.scheduled = false ∧ e.call = call ∧
      gs[e.grant]? = some g ∧ g.nativeId = nativeId := by
  obtain ⟨n, e, g, hn, hs, hc, hgr, hnat⟩ := hi.invoked nativeId call h
  obtain ⟨e', hn', hgrant, hcall, hs'⟩ := he n e hn
  obtain ⟨g', hgr', hnat', -, -, -⟩ := hg e.grant g hgr
  exact ⟨n, e', g', hn', hs' hs, hcall.trans hc, by rw [hgrant]; exact hgr', hnat'.trans hnat⟩

/- One errand for a native identity. -/
theorem errand_unique (hi : AuthorityInv limit a) (n n' : ℕ) (e e' : Errand) (g g' : Grant)
    (hn : a.errands[n]? = some e) (hn' : a.errands[n']? = some e')
    (hg : a.grants[e.grant]? = some g) (hg' : a.grants[e'.grant]? = some g')
    (h : g.nativeId = g'.nativeId) : n = n' := by
  have hl : e.grant < (a.grants.map Grant.nativeId).length := by
    rw [List.length_map]
    exact (List.getElem?_eq_some_iff.mp hg).1
  have hl' : e'.grant < (a.grants.map Grant.nativeId).length := by
    rw [List.length_map]
    exact (List.getElem?_eq_some_iff.mp hg').1
  have hkey : (a.grants.map Grant.nativeId)[e.grant] = (a.grants.map Grant.nativeId)[e'.grant] := by
    rw [List.getElem_map, List.getElem_map, (List.getElem?_eq_some_iff.mp hg).2,
      (List.getElem?_eq_some_iff.mp hg').2, h]
  have hsame : e.grant = e'.grant := hi.natives.getElem_inj_iff.mp hkey
  obtain ⟨k, hk, hkn, -⟩ := hi.errands n e hn
  obtain ⟨k', hk', hkn', -⟩ := hi.errands n' e' hn'
  rw [hsame, hk'] at hk
  cases hk
  rw [hkn] at hkn'
  exact Option.some.inj hkn'

end transfer

/- What a move may do to the grants' identities: nothing. -/
theorem natives_modify (gs : List Grant) (o : ℕ) (f : Grant → Grant)
    (hf : ∀ g, (f g).nativeId = g.nativeId) (nativeId : Str)
    (h : ∀ g ∈ gs, g.nativeId ≠ nativeId) : ∀ g ∈ gs.modify o f, g.nativeId ≠ nativeId := by
  intro g hg hn
  have hmem : nativeId ∈ (gs.modify o f).map Grant.nativeId := List.mem_map.mpr ⟨g, hg, hn⟩
  rw [map_modify gs o f Grant.nativeId hf] at hmem
  obtain ⟨g', hg', hn'⟩ := List.mem_map.mp hmem
  exact h g' hg' hn'

theorem nodup_map_append {α : Type} (l : List α) (x : α) (part : α → Str)
    (h : (l.map part).Nodup) (hnew : ∀ y ∈ l, part y ≠ part x) :
    ((l ++ [x]).map part).Nodup := by
  rw [List.map_append, List.map_singleton]
  refine List.nodup_append.mpr ⟨h, List.nodup_singleton _, ?_⟩
  intro s hs t ht
  obtain ⟨y, hy, rfl⟩ := List.mem_map.mp hs
  rw [List.mem_singleton.mp ht]
  exact hnew y hy

theorem callers_length (cs : List Caller) (i : ℕ) (waiting : Option ℕ) :
    (cs.modify i (Caller.await waiting)).length = cs.length :=
  List.length_modify _ _ _

theorem log_old {event latest : Event} {log : List Event} (h : event ∈ latest :: log)
    (hne : event ≠ latest) : event ∈ log := List.mem_of_ne_of_mem hne h

section moves
variable {limit : ℕ} {a : Authority}

theorem known_log (hi : AuthorityInv limit a) (latest : Event)
    (hobtained : ∀ i o, latest = .obtained i o → i < a.callers.length)
    (hscheduled : ∀ i o, latest = .scheduled i o → i < a.callers.length) (i o : ℕ)
    (h : .obtained i o ∈ latest :: a.log ∨ .scheduled i o ∈ latest :: a.log) :
    i < a.callers.length := by
  rcases h with h | h
  · rcases List.mem_cons.mp h with heq | hold
    · exact hobtained i o heq.symm
    · exact hi.known i o (.inl hold)
  · rcases List.mem_cons.mp h with heq | hold
    · exact hscheduled i o heq.symm
    · exact hi.known i o (.inr hold)

theorem inv_create (hi : AuthorityInv limit a) (nativeId name : Str) (arguments : Members)
    (hnew : ∀ g ∈ a.grants, g.nativeId ≠ nativeId) (hecho : .echoed nativeId ∉ a.log)
    (hroom : a.grants.length < limit) :
    AuthorityInv limit
      { a with grants := a.grants ++ [⟨nativeId, name, arguments, none, false⟩] } where
  natives := nodup_map_append a.grants _ Grant.nativeId hi.natives hnew
  few := by
    have hl : (a.grants ++ [⟨nativeId, name, arguments, none, false⟩] : List Grant).length
        = a.grants.length + 1 := List.length_append
    exact hl ▸ hroom
  apart native h g hg := by
    rcases List.mem_append.mp hg with hold | hone
    · exact hi.apart native h g hold
    · rw [List.mem_singleton.mp hone]
      intro (heq : nativeId = native)
      rw [heq] at hecho
      exact hecho h
  bound := bound_keeps hi _ (keepsGrants_append _ _)
  errands := errands_keeps hi _ (keepsGrants_append _ _)
  invoked := invoked_keeps hi _ _ (keepsGrants_append _ _) (keepsErrands_refl _)
  once := hi.once
  known := hi.known
  idents := hi.idents

theorem inv_attach (hi : AuthorityInv limit a) (p o : ℕ) (offer : Offer) (grant : Grant)
    (hp : a.offers[p]? = some offer) (ho : a.grants[o]? = some grant)
    (hfree : ∀ o' ∈ offer.grant, o' = o) (hname : grant.name = offer.name)
    (hargs : sameArguments grant.arguments offer.arguments = true) :
    AuthorityInv limit
      { a with
        offers := a.offers.modify p (Offer.join o)
        log := .bound p grant.nativeId offer.name offer.arguments :: a.log } where
  natives := hi.natives
  few := hi.few
  apart native h := hi.apart native (log_old h nofun)
  bound p' native name arguments h := by
    rcases List.mem_cons.mp h with heq | hold
    · cases heq
      have hat := modify_at a.offers p p (Offer.join o) offer hp
      rw [if_pos rfl] at hat
      exact ⟨_, o, grant, hat, rfl, ho, rfl, hname, hargs⟩
    · obtain ⟨offer', o', grant', hp', ho', hrest⟩ := hi.bound p' native name arguments hold
      have hat := modify_at a.offers p p' (Offer.join o) offer' hp'
      refine ⟨_, o', grant', hat, ?_, hrest⟩
      by_cases heq : p = p'
      · subst heq
        rw [hp] at hp'
        cases hp'
        rw [if_pos rfl, hfree o' ho']
        rfl
      · rw [if_neg heq, ho']
  errands := hi.errands
  invoked native call h := hi.invoked native call (log_old h nofun)
  once := hi.once
  known := known_log hi _ nofun nofun
  idents := hi.idents

theorem inv_echo (hi : AuthorityInv limit a) (nativeId : Str)
    (hnew : ∀ g ∈ a.grants, g.nativeId ≠ nativeId) :
    AuthorityInv limit { a with log := .echoed nativeId :: a.log } where
  natives := hi.natives
  few := hi.few
  apart native h := by
    rcases List.mem_cons.mp h with heq | hold
    · cases heq
      exact hnew
    · exact hi.apart native hold
  bound p native name arguments h :=
    hi.bound p native name arguments (log_old h nofun)
  errands := hi.errands
  invoked native call h := hi.invoked native call (log_old h nofun)
  once := hi.once
  known := known_log hi _ nofun nofun
  idents := hi.idents

theorem inv_offer (hi : AuthorityInv limit a) (name : Str) (arguments : Members) :
    AuthorityInv limit { a with offers := a.offers ++ [⟨name, arguments, none⟩] } where
  natives := hi.natives
  few := hi.few
  apart := hi.apart
  bound p native name' arguments' h := by
    obtain ⟨offer, o, grant, hp, hrest⟩ := hi.bound p native name' arguments' h
    exact ⟨offer, o, grant, append_at a.offers _ offer p hp, hrest⟩
  errands := hi.errands
  invoked := hi.invoked
  once := hi.once
  known := hi.known
  idents := hi.idents

theorem inv_arrive (hi : AuthorityInv limit a) (transportId : Str)
    (hnew : ∀ c ∈ a.callers, c.transportId ≠ transportId) :
    AuthorityInv limit { a with callers := a.callers ++ [⟨transportId, none⟩] } where
  natives := hi.natives
  few := hi.few
  apart := hi.apart
  bound := hi.bound
  errands := hi.errands
  invoked := hi.invoked
  once := hi.once
  known i o h := by
    have hl : (a.callers ++ [⟨transportId, none⟩] : List Caller).length = a.callers.length + 1 :=
      List.length_append
    have hlt : i < a.callers.length := hi.known i o h
    exact hl ▸ Nat.lt_succ_of_lt hlt
  idents := nodup_map_append a.callers ⟨transportId, none⟩ Caller.transportId hi.idents hnew

theorem inv_schedule (hi : AuthorityInv limit a) (i o : ℕ) (grant : Grant)
    (call : ProviderToolCall) (hlt : i < a.callers.length) (ho : a.grants[o]? = some grant)
    (hnone : grant.errand = none) (hname : call.name = grant.name)
    (hargs : call.arguments = grant.arguments) :
    AuthorityInv limit
      { a with
        errands := a.errands ++ [⟨o, call, true⟩]
        grants := a.grants.modify o (Grant.hold a.errands.length)
        log := .scheduled i o :: a.log } where
  natives := by
    rw [map_modify a.grants o (Grant.hold a.errands.length) Grant.nativeId fun _ => rfl]
    exact hi.natives
  few := (List.length_modify _ _ _).trans_le hi.few
  apart native h := natives_modify a.grants o (Grant.hold a.errands.length) (fun _ => rfl) native
    (hi.apart native (log_old h nofun))
  bound p native name arguments h :=
    bound_keeps hi _ (keepsGrants_schedule a.grants o _ grant ho hnone) p native name arguments
      (log_old h nofun)
  errands n e h := by
    rcases at_append a.errands _ n e h with hold | ⟨hn, he⟩
    · exact errands_keeps hi _ (keepsGrants_schedule a.grants o _ grant ho hnone) n e hold
    · have hat := modify_at a.grants o o (Grant.hold a.errands.length)
        grant ho
      rw [if_pos rfl] at hat
      subst hn he
      exact ⟨_, hat, rfl, hname, hargs⟩
  invoked native call' h :=
    invoked_keeps hi _ _ (keepsGrants_schedule a.grants o _ grant ho hnone)
      (keepsErrands_append a.errands _) native call' (log_old h nofun)
  once := hi.once
  known := known_log hi _ nofun fun i' o' heq => by
    rw [← (Event.scheduled.inj heq).1]
    exact hlt
  idents := hi.idents

/- A caller waits, or waits no longer. -/
theorem inv_callers (hi : AuthorityInv limit a) (i : ℕ) (waiting : Option ℕ) :
    AuthorityInv limit
      { a with callers := a.callers.modify i (Caller.await waiting) } where
  natives := hi.natives
  few := hi.few
  apart := hi.apart
  bound := hi.bound
  errands := hi.errands
  invoked := hi.invoked
  once := hi.once
  known i' o h := (callers_length a.callers i waiting).symm ▸ hi.known i' o h
  idents := by
    rw [map_modify a.callers i (Caller.await waiting) Caller.transportId fun _ => rfl]
    exact hi.idents

theorem inv_obtained (hi : AuthorityInv limit a) (i o : ℕ) (hlt : i < a.callers.length) :
    AuthorityInv limit { a with log := .obtained i o :: a.log } where
  natives := hi.natives
  few := hi.few
  apart native h := hi.apart native (log_old h nofun)
  bound p native name arguments h :=
    hi.bound p native name arguments (log_old h nofun)
  errands := hi.errands
  invoked native call h := hi.invoked native call (log_old h nofun)
  once := hi.once
  known := known_log hi _ (fun i' o' heq => by
    rw [← (Event.obtained.inj heq).1]
    exact hlt) nofun
  idents := hi.idents

theorem inv_doubt (hi : AuthorityInv limit a) (o : ℕ) :
    AuthorityInv limit
      { a with grants := a.grants.modify o Grant.doubt } where
  natives := by
    rw [map_modify a.grants o Grant.doubt Grant.nativeId fun _ => rfl]
    exact hi.natives
  few := (List.length_modify _ _ _).trans_le hi.few
  apart native h := natives_modify a.grants o Grant.doubt (fun _ => rfl) native (hi.apart native h)
  bound := bound_keeps hi _ (keepsGrants_doubt a.grants o)
  errands := errands_keeps hi _ (keepsGrants_doubt a.grants o)
  invoked := invoked_keeps hi _ _ (keepsGrants_doubt a.grants o) (keepsErrands_refl _)
  once := hi.once
  known := hi.known
  idents := hi.idents

theorem errands_started (hi : AuthorityInv limit a) (n n' : ℕ) (e : Errand)
    (h : (a.errands.modify n Errand.leave)[n']? = some e) :
    ∃ g : Grant, a.grants[e.grant]? = some g ∧ g.errand = some n' ∧ e.call.name = g.name ∧
      e.call.arguments = g.arguments := by
  obtain ⟨e', he', heq⟩ := at_modify _ _ _ _ _ h
  have hgrant : e.grant = e'.grant := by rw [heq]; split <;> rfl
  have hcall : e.call = e'.call := by rw [heq]; split <;> rfl
  rw [hgrant, hcall]
  exact hi.errands n' e' he'

theorem inv_drop (hi : AuthorityInv limit a) (n : ℕ) :
    AuthorityInv limit
      { a with errands := a.errands.modify n Errand.leave } where
  natives := hi.natives
  few := hi.few
  apart := hi.apart
  bound := hi.bound
  errands := errands_started hi n
  invoked := invoked_keeps hi _ _ (keepsGrants_refl _) (keepsErrands_started a.errands n)
  once := hi.once
  known := hi.known
  idents := hi.idents

/- The errand of a native identity that was invoked is not scheduled. -/
theorem not_invoked (hi : AuthorityInv limit a) (n : ℕ) (errand : Errand) (grant : Grant)
    (hn : a.errands[n]? = some errand) (hs : errand.scheduled = true)
    (hg : a.grants[errand.grant]? = some grant) (call : ProviderToolCall) :
    .invoked grant.nativeId call ∉ a.log := by
  intro h
  obtain ⟨n', e', g', hn', hs', -, hg', hnat⟩ := hi.invoked _ _ h
  have hsame : n' = n := errand_unique hi n' n e' errand g' grant hn' hn hg' hg hnat
  rw [hsame, hn] at hn'
  cases hn'
  rw [hs] at hs'
  cases hs'

theorem inv_invoke (hi : AuthorityInv limit a) (n : ℕ) (errand : Errand) (grant : Grant)
    (hn : a.errands[n]? = some errand) (hs : errand.scheduled = true)
    (hg : a.grants[errand.grant]? = some grant) :
    AuthorityInv limit
      { a with
        errands := a.errands.modify n Errand.leave
        log := .invoked grant.nativeId errand.call :: a.log } where
  natives := hi.natives
  few := hi.few
  apart native h := hi.apart native (log_old h nofun)
  bound p native name arguments h :=
    hi.bound p native name arguments (log_old h nofun)
  errands := errands_started hi n
  invoked native call h := by
    rcases List.mem_cons.mp h with heq | hold
    · cases heq
      have hat := modify_at a.errands n n Errand.leave errand hn
      rw [if_pos rfl] at hat
      exact ⟨n, _, grant, hat, rfl, rfl, hg, rfl⟩
    · exact invoked_keeps hi _ _ (keepsGrants_refl _) (keepsErrands_started a.errands n) native
        call hold
  once := by
    have hnew : grant.nativeId ∉ a.log.filterMap Event.invokedNative := by
      intro hmem
      obtain ⟨event, hlog, hnative⟩ := List.mem_filterMap.mp hmem
      cases event with
      | invoked nativeId call =>
        have heq : nativeId = grant.nativeId := Option.some.inj hnative
        subst heq
        exact not_invoked hi n errand grant hn hs hg call hlog
      | _ => cases hnative
    exact List.nodup_cons.mpr ⟨hnew, hi.once⟩
  known := known_log hi _ nofun nofun
  idents := hi.idents

theorem authorityInv_move (hi : AuthorityInv limit a) (b : Authority) (h : Move limit a b) :
    AuthorityInv limit b := by
  cases h with
  | create nativeId name arguments hnew hecho hroom =>
    exact inv_create hi nativeId name arguments hnew hecho hroom
  | attach p o offer grant hp ho hfree hname hargs =>
    exact inv_attach hi p o offer grant hp ho hfree hname hargs
  | echo nativeId hnew => exact inv_echo hi nativeId hnew
  | offer name arguments => exact inv_offer hi name arguments
  | arrive transportId hnew => exact inv_arrive hi transportId hnew
  | schedule i o grant call hlt ho hsure hnone hname hargs =>
    exact inv_schedule hi i o grant call hlt ho hnone hname hargs
  | wait i n errand grant hn hg hsure => exact inv_callers hi i (some n)
  | answer i o grant hlt ho hsure => exact inv_obtained hi i o hlt
  | collect i n caller errand hc hw hn =>
    exact inv_obtained hi i errand.grant (List.getElem?_eq_some_iff.mp hc).1
  | leave i => exact inv_callers hi i none
  | doubt o => exact inv_doubt hi o
  | invoke n errand grant hn hs hg => exact inv_invoke hi n errand grant hn hs hg
  | drop n => exact inv_drop hi n

theorem authorityInv_moves (hi : AuthorityInv limit a) (b : Authority) (h : Moves limit a b) :
    AuthorityInv limit b := by
  induction h with
  | refl => exact hi
  | tail _ hmove ih => exact authorityInv_move ih _ hmove

/- An invocation for each grant at most. -/
theorem invocations_le (hi : AuthorityInv limit a) :
    (a.log.filterMap Event.invokedNative).length ≤ limit := by
  have hsub : a.log.filterMap Event.invokedNative ⊆ a.grants.map Grant.nativeId := by
    intro native hmem
    obtain ⟨event, hlog, hnative⟩ := List.mem_filterMap.mp hmem
    cases event with
    | invoked nativeId call =>
      have heq : nativeId = native := Option.some.inj hnative
      obtain ⟨n, e, g, -, -, -, hg, hnat⟩ := hi.invoked nativeId call hlog
      exact List.mem_map.mpr ⟨g, List.mem_of_getElem? hg, hnat.trans heq⟩
    | _ => cases hnative
  have hle : (a.log.filterMap Event.invokedNative).length ≤ (a.grants.map Grant.nativeId).length :=
    (hi.once.subperm hsub).length_le
  rw [List.length_map] at hle
  exact hle.trans hi.few

end moves

/-! ## An uncertain grant -/

/-- Grant `o` is uncertain, and no caller from `k` on has to do with it. -/
structure Shut (o k : ℕ) (a : Authority) : Prop where
  uncertain : ∃ g : Grant, a.grants[o]? = some g ∧ g.uncertain = true
  waiting : ∀ (i : ℕ) (c : Caller), k ≤ i → a.callers[i]? = some c → ∀ n, c.waiting = some n →
    ∃ e : Errand, a.errands[n]? = some e ∧ e.grant ≠ o
  silent : ∀ i, k ≤ i → .obtained i o ∉ a.log ∧ .scheduled i o ∉ a.log

section shut
variable {limit o k : ℕ} {a : Authority}

theorem shut_of_uncertain (hi : AuthorityInv limit a) (g : Grant) (hg : a.grants[o]? = some g)
    (hu : g.uncertain = true) : Shut o a.callers.length a where
  uncertain := ⟨g, hg, hu⟩
  waiting i c hk hc := by
    have hlt : i < a.callers.length := (List.getElem?_eq_some_iff.mp hc).1
    omega
  silent i hk := by
    have hnot : ¬ i < a.callers.length := Nat.not_lt.mpr hk
    exact ⟨fun h => hnot (hi.known i o (.inl h)), fun h => hnot (hi.known i o (.inr h))⟩

/- A grant that is not uncertain is another one. -/
theorem Shut.other (hs : Shut o k a) (o' : ℕ) (g : Grant) (hg : a.grants[o']? = some g)
    (hsure : g.uncertain = false) : o' ≠ o := by
  intro heq
  obtain ⟨g', hg', hu⟩ := hs.uncertain
  rw [heq, hg'] at hg
  cases hg
  rw [hu] at hsure
  cases hsure

theorem Shut.silent_log (hs : Shut o k a) (latest : Event)
    (hne : ∀ i, k ≤ i → latest ≠ .obtained i o ∧ latest ≠ .scheduled i o) (i : ℕ) (hk : k ≤ i) :
    .obtained i o ∉ latest :: a.log ∧ .scheduled i o ∉ latest :: a.log := by
  have hold := hs.silent i hk
  have hnew := hne i hk
  constructor
  · intro h
    exact hold.1 (log_old h hnew.1.symm)
  · intro h
    exact hold.2 (log_old h hnew.2.symm)

theorem Shut.waiting_keeps (hs : Shut o k a) (es : List Errand) (he : KeepsErrands a.errands es)
    (i : ℕ) (c : Caller) (hk : k ≤ i) (hc : a.callers[i]? = some c) (n : ℕ)
    (hn : c.waiting = some n) : ∃ e : Errand, es[n]? = some e ∧ e.grant ≠ o := by
  obtain ⟨e, hat, hne⟩ := hs.waiting i c hk hc n hn
  obtain ⟨e', hat', hgrant, -, -⟩ := he n e hat
  exact ⟨e', hat', hgrant ▸ hne⟩

theorem Shut.uncertain_modify (hs : Shut o k a) (o' : ℕ) (f : Grant → Grant)
    (hf : ∀ g, g.uncertain = true → (f g).uncertain = true) :
    ∃ g : Grant, (a.grants.modify o' f)[o]? = some g ∧ g.uncertain = true := by
  obtain ⟨g, hg, hu⟩ := hs.uncertain
  refine ⟨_, modify_at a.grants o' o f g hg, ?_⟩
  split
  · exact hf g hu
  · exact hu

theorem Shut.waiting_await (hs : Shut o k a) (i : ℕ) (waiting : Option ℕ)
    (hw : ∀ n, waiting = some n → ∃ e : Errand, a.errands[n]? = some e ∧ e.grant ≠ o) (i' : ℕ)
    (c : Caller) (hk : k ≤ i') (hc : (a.callers.modify i (Caller.await waiting))[i']? = some c)
    (n : ℕ) (hn : c.waiting = some n) : ∃ e : Errand, a.errands[n]? = some e ∧ e.grant ≠ o := by
  obtain ⟨c', hc', heq⟩ := at_modify _ _ _ _ _ hc
  by_cases hsame : i = i'
  · rw [if_pos hsame] at heq
    subst heq
    exact hw n hn
  · rw [if_neg hsame] at heq
    subst heq
    exact hs.waiting i' c hk hc' n hn

theorem shut_schedule (hs : Shut o k a) (i o' : ℕ) (grant : Grant) (call : ProviderToolCall)
    (ho : a.grants[o']? = some grant) (hsure : grant.uncertain = false) :
    Shut o k { a with
      errands := a.errands ++ [⟨o', call, true⟩]
      grants := a.grants.modify o' (Grant.hold a.errands.length)
      log := .scheduled i o' :: a.log } where
  uncertain := hs.uncertain_modify o' (Grant.hold a.errands.length) fun _ hu => hu
  waiting := hs.waiting_keeps _ (keepsErrands_append a.errands _)
  silent := hs.silent_log _ fun _ _ =>
    ⟨nofun, fun heq => hs.other o' grant ho hsure (Event.scheduled.inj heq).2⟩

theorem shut_collect (hs : Shut o k a) (i n : ℕ) (caller : Caller) (errand : Errand)
    (hi : a.callers[i]? = some caller) (hw : caller.waiting = some n)
    (hn : a.errands[n]? = some errand) :
    Shut o k { a with log := .obtained i errand.grant :: a.log } where
  uncertain := hs.uncertain
  waiting := hs.waiting
  silent := by
    refine hs.silent_log _ fun i' hk => ⟨fun heq => ?_, nofun⟩
    obtain ⟨hsame, hgrant⟩ := Event.obtained.inj heq
    rw [← hsame] at hk
    -- the caller would wait for an errand of another grant
    obtain ⟨e, he, hne⟩ := hs.waiting i caller hk hi n hw
    rw [hn] at he
    cases he
    exact hne hgrant

theorem shut_arrive (hs : Shut o k a) (transportId : Str) :
    Shut o k { a with callers := a.callers ++ [⟨transportId, none⟩] } where
  uncertain := hs.uncertain
  waiting i c hk hc n hn := by
    rcases at_append a.callers _ i c hc with hold | ⟨-, hnew⟩
    · exact hs.waiting i c hk hold n hn
    · rw [hnew] at hn
      cases hn
  silent := hs.silent

theorem shut_move (hs : Shut o k a) (b : Authority) (h : Move limit a b) : Shut o k b := by
  cases h with
  | create nativeId name arguments hnew hecho hroom =>
    obtain ⟨g, hg, hu⟩ := hs.uncertain
    exact ⟨⟨g, append_at a.grants _ g o hg, hu⟩, hs.waiting, hs.silent⟩
  | attach p o' offer grant hp ho hfree hname hargs =>
    exact ⟨hs.uncertain, hs.waiting, hs.silent_log _ fun _ _ => ⟨nofun, nofun⟩⟩
  | echo nativeId hnew =>
    exact ⟨hs.uncertain, hs.waiting, hs.silent_log _ fun _ _ => ⟨nofun, nofun⟩⟩
  | offer name arguments => exact ⟨hs.uncertain, hs.waiting, hs.silent⟩
  | arrive transportId hnew => exact shut_arrive hs transportId
  | schedule i o' grant call hlt ho hsure hnone hname hargs =>
    exact shut_schedule hs i o' grant call ho hsure
  | wait i n errand grant hn hg hsure =>
    have hother : errand.grant ≠ o := hs.other errand.grant grant hg hsure
    refine ⟨hs.uncertain, hs.waiting_await i (some n) fun m hm => ?_, hs.silent⟩
    cases hm
    exact ⟨errand, hn, hother⟩
  | answer i o' grant hlt ho hsure =>
    have hother : o' ≠ o := hs.other o' grant ho hsure
    exact ⟨hs.uncertain, hs.waiting, hs.silent_log _ fun _ _ =>
      ⟨fun heq => hother (Event.obtained.inj heq).2, nofun⟩⟩
  | collect i n caller errand hc hw hn => exact shut_collect hs i n caller errand hc hw hn
  | leave i => exact ⟨hs.uncertain, hs.waiting_await i none nofun, hs.silent⟩
  | doubt o' => exact ⟨hs.uncertain_modify o' Grant.doubt fun _ _ => rfl, hs.waiting, hs.silent⟩
  | invoke n errand grant hn hsch hg =>
    exact ⟨hs.uncertain, hs.waiting_keeps _ (keepsErrands_started a.errands n),
      hs.silent_log _ fun _ _ => ⟨nofun, nofun⟩⟩
  | drop n => exact ⟨hs.uncertain, hs.waiting_keeps _ (keepsErrands_started a.errands n), hs.silent⟩

theorem shut_moves (hs : Shut o k a) (b : Authority) (h : Moves limit a b) : Shut o k b := by
  induction h with
  | refl => exact hs
  | tail _ hmove ih => exact shut_move ih _ hmove

end shut

end ParallelForge.Agents.Gemini
