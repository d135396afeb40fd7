import ParallelForge.Agents.GeminiAuthority

/-!
# The protocol moves authority

The lists of the protocol, without what only its frames read, are an
`Authority`, and every step is a run of moves. The dictionaries are an index of
the lists until `close` empties them; nothing is bound or received afterwards.
-/

namespace ParallelForge.Agents.Gemini
open Base

def Operation.grant (op : Operation) : Grant :=
  ⟨op.nativeId, op.name, op.arguments, op.task, op.uncertain⟩

def Proposal.offer (proposal : Proposal) : Offer :=
  ⟨proposal.name, proposal.arguments, proposal.operation⟩

def CallState.isScheduled : CallState → Bool
  | .scheduled => true
  | _ => false

def BrokerCall.errand (c : BrokerCall) : Errand := ⟨c.operation, c.call, c.state.isScheduled⟩

def RequestState.call : RequestState → Option ℕ
  | .waiting _ n => some n
  | _ => none

def Request.caller (request : Request) : Caller := ⟨request.transportId, request.state.call⟩

def World.authority (w : World) : Authority :=
  ⟨w.state.operationObjects.map Operation.grant, w.state.proposalObjects.map Proposal.offer,
    w.state.calls.map BrokerCall.errand, w.state.requests.map Request.caller, w.log⟩

/-- The dictionaries that decide, with what they are an index of. -/
structure Keys where
  closed : Bool
  operations : Table Str ℕ
  auxiliaryNative : Table Str Str
  transport : Table Str Transport
  natives : List Str
  arguments : List Members
  requests : List (Str × Members)

def State.keys (st : State) : Keys :=
  ⟨st.closed, st.operations, st.auxiliaryNative, st.transport,
    st.operationObjects.map Operation.nativeId, st.proposalObjects.map Proposal.arguments,
    st.requests.map fun r => (r.transportId, r.params)⟩

/-- Arguments that are texts under distinct names. -/
def Texts (arguments : Members) : Prop :=
  (arguments.map Prod.fst).Nodup ∧ ∀ p ∈ arguments, isStrValue p.2 = true

structure Indexed (k : Keys) (log : List Event) : Prop where
  rows : k.operations.rows.length = k.natives.length
  operations : IndexOf k.operations k.natives id fun _ o => o
  echoes : ∀ nativeId, .echoed nativeId ∈ log → k.auxiliaryNative.get nativeId ≠ none
  transport : IndexOf k.transport k.requests Prod.fst fun r i => ⟨fingerprint r.2, i⟩

structure Synced (k : Keys) (log : List Event) : Prop where
  texts : ∀ arguments ∈ k.arguments, Texts arguments
  readable : ∀ r ∈ k.requests, Json.All (Json.Readable true) (.obj r.2)
  opened : k.closed = false → Indexed k log

/-- Offers join grants that exist, and a grant's errand is for it. -/
structure Linked (a : Authority) : Prop where
  joined : ∀ (p : ℕ) (offer : Offer), a.offers[p]? = some offer → ∀ o, offer.grant = some o →
    ∃ g, a.grants[o]? = some g
  errands : ∀ (o : ℕ) (g : Grant), a.grants[o]? = some g → ∀ n, g.errand = some n →
    ∃ e : Errand, a.errands[n]? = some e ∧ e.grant = o

theorem linked_init : Linked Authority.init where
  joined p offer h := by simp [Authority.init] at h
  errands o g h := by simp [Authority.init] at h

section linked
variable {limit : ℕ} {a : Authority}

theorem Linked.joined_keeps (hl : Linked a) (gs : List Grant) (hg : KeepsGrants a.grants gs)
    (p : ℕ) (offer : Offer) (hp : a.offers[p]? = some offer) (o : ℕ) (ho : offer.grant = some o) :
    ∃ g, gs[o]? = some g := by
  obtain ⟨g, hat⟩ := hl.joined p offer hp o ho
  obtain ⟨g', hat', -⟩ := hg o g hat
  exact ⟨g', hat'⟩

theorem Linked.errands_keeps (hl : Linked a) (es : List Errand) (he : KeepsErrands a.errands es)
    (o : ℕ) (g : Grant) (hg : a.grants[o]? = some g) (n : ℕ) (hn : g.errand = some n) :
    ∃ e : Errand, es[n]? = some e ∧ e.grant = o := by
  obtain ⟨e, hat, hgrant⟩ := hl.errands o g hg n hn
  obtain ⟨e', hat', hgrant', -, -⟩ := he n e hat
  exact ⟨e', hat', hgrant'.trans hgrant⟩

theorem linked_schedule (hl : Linked a) (i o : ℕ) (grant : Grant) (call : ProviderToolCall)
    (ho : a.grants[o]? = some grant) (hnone : grant.errand = none) :
    Linked { a with
      errands := a.errands ++ [⟨o, call, true⟩]
      grants := a.grants.modify o (Grant.hold a.errands.length)
      log := .scheduled i o :: a.log } where
  joined := hl.joined_keeps _ (keepsGrants_schedule a.grants o _ grant ho hnone)
  errands o' g hg n hn := by
    obtain ⟨g', hg', heq⟩ := at_modify _ _ _ _ _ hg
    by_cases hsame : o = o'
    · rw [if_pos hsame] at heq
      rw [heq] at hn
      have hlast : a.errands.length = n := Option.some.inj hn
      subst hlast
      exact ⟨⟨o, call, true⟩, List.getElem?_concat_length, hsame⟩
    · rw [if_neg hsame] at heq
      rw [heq] at hn
      exact hl.errands_keeps _ (keepsErrands_append a.errands _) o' g' hg' n hn

theorem linked_move (hl : Linked a) (b : Authority) (h : Move limit a b) : Linked b := by
  cases h with
  | create nativeId name arguments hnew hecho hroom =>
    refine ⟨hl.joined_keeps _ (keepsGrants_append a.grants _), fun o g hg n hn => ?_⟩
    rcases at_append a.grants _ o g hg with hold | ⟨-, hone⟩
    · exact hl.errands o g hold n hn
    · rw [hone] at hn
      cases hn
  | attach p o offer grant hp ho hfree hname hargs =>
    refine ⟨fun p' offer' hp' o' ho' => ?_, hl.errands⟩
    obtain ⟨before, hbefore, heq⟩ := at_modify _ _ _ _ _ hp'
    by_cases hsame : p = p'
    · rw [if_pos hsame] at heq
      rw [heq] at ho'
      cases ho'
      exact ⟨grant, ho⟩
    · rw [if_neg hsame] at heq
      subst heq
      exact hl.joined p' offer' hbefore o' ho'
  | echo nativeId hnew => exact ⟨hl.joined, hl.errands⟩
  | offer name arguments =>
    refine ⟨fun p offer hp o ho => ?_, hl.errands⟩
    rcases at_append a.offers _ p offer hp with hold | ⟨-, hone⟩
    · exact hl.joined p offer hold o ho
    · rw [hone] at ho
      cases ho
  | arrive transportId hnew => exact ⟨hl.joined, hl.errands⟩
  | schedule i o grant call hlt ho hsure hnone hname hargs =>
    exact linked_schedule hl i o grant call ho hnone
  | wait i n errand grant hn hg hsure => exact ⟨hl.joined, hl.errands⟩
  | answer i o grant hlt ho hsure => exact ⟨hl.joined, hl.errands⟩
  | collect i n caller errand hc hw hn => exact ⟨hl.joined, hl.errands⟩
  | leave i => exact ⟨hl.joined, hl.errands⟩
  | doubt o =>
    refine ⟨hl.joined_keeps _ (keepsGrants_doubt a.grants o), fun o' g hg n hn => ?_⟩
    obtain ⟨g', hg', heq⟩ := at_modify _ _ _ _ _ hg
    have herrand : g.errand = g'.errand := by rw [heq]; split <;> rfl
    exact hl.errands o' g' hg' n (herrand ▸ hn)
  | invoke n errand grant hn hs hg =>
    exact ⟨hl.joined, hl.errands_keeps _ (keepsErrands_started a.errands n)⟩
  | drop n => exact ⟨hl.joined, hl.errands_keeps _ (keepsErrands_started a.errands n)⟩

theorem linked_moves (hl : Linked a) (b : Authority) (h : Moves limit a b) : Linked b := by
  induction h with
  | refl => exact hl
  | tail _ hmove ih => exact linked_move ih _ hmove

end linked

/-! ## Refinement -/

structure Sound (w : World) : Prop where
  synced : Synced w.state.keys w.log
  linked : Linked w.authority

/-- From a sound world to one that moves reach. -/
def Refines (limit : ℕ) (w w' : World) : Prop :=
  Sound w → Synced w'.state.keys w'.log ∧ Moves limit w.authority w'.authority

theorem Refines.sound {limit : ℕ} {w w' : World} (h : Refines limit w w') (hs : Sound w) :
    Sound w' :=
  ⟨(h hs).1, linked_moves hs.linked _ (h hs).2⟩

theorem Refines.trans {limit : ℕ} {w w' w'' : World} (h : Refines limit w w')
    (h' : Refines limit w' w'') : Refines limit w w'' := by
  intro hs
  have hmid := h' (h.sound hs)
  exact ⟨hmid.1, (h hs).2.trans hmid.2⟩

theorem Refines.refl {limit : ℕ} (w : World) : Refines limit w w := fun hs => ⟨hs.synced, .refl⟩

theorem synced_log {k : Keys} {log log' : List Event} (h : Synced k log)
    (hlog : ∀ nativeId, .echoed nativeId ∈ log' → .echoed nativeId ∈ log) : Synced k log' where
  texts := h.texts
  readable := h.readable
  opened hc :=
    have hx := h.opened hc
    ⟨hx.rows, hx.operations, fun native he => hx.echoes native (hlog native he), hx.transport⟩

/- A step that leaves the index alone. -/
theorem refines_keys {limit : ℕ} {w w' : World} (hk : w'.state.keys = w.state.keys)
    (hlog : ∀ nativeId, .echoed nativeId ∈ w'.log → .echoed nativeId ∈ w.log)
    (hmoves : Sound w → Moves limit w.authority w'.authority) : Refines limit w w' := by
  intro hs
  exact ⟨synced_log (hk ▸ hs.synced) hlog, hmoves hs⟩

/-! ## The lists change in place -/

section objects
variable {limit : ℕ} (st : State) (log : List Event)

theorem keys_modifyOperation (o : ℕ) (f : Operation → Operation)
    (hf : ∀ op, (f op).nativeId = op.nativeId) : (st.modifyOperation o f).keys = st.keys := by
  have hmap := map_modify st.operationObjects o f Operation.nativeId hf
  unfold State.keys State.modifyOperation
  rw [hmap]

theorem keys_setRequest (i : ℕ) (state : RequestState) : (st.setRequest i state).keys = st.keys := by
  have hmap := map_modify st.requests i (fun r => { r with state := state })
    (fun r => (r.transportId, r.params)) fun _ => rfl
  unfold State.keys State.setRequest
  rw [hmap]

/- What is not part of the operation's grant. -/
theorem refines_operation (o : ℕ) (f : Operation → Operation)
    (hf : ∀ op, (f op).grant = op.grant) : Refines limit ⟨st, log⟩ ⟨st.modifyOperation o f, log⟩ := by
  have hk := keys_modifyOperation st o f fun op => congrArg Grant.nativeId (hf op)
  refine refines_keys hk (fun _ h => h) fun _ => ?_
  have hmap := map_modify st.operationObjects o f Operation.grant hf
  have hauth : (⟨st.modifyOperation o f, log⟩ : World).authority = (⟨st, log⟩ : World).authority := by
    unfold World.authority State.modifyOperation
    rw [hmap]
  rw [hauth]

theorem refines_doubt (o : ℕ) (f : Operation → Operation)
    (hf : ∀ op, (f op).grant = op.grant.doubt) :
    Refines limit ⟨st, log⟩ ⟨st.modifyOperation o f, log⟩ := by
  have hk := keys_modifyOperation st o f fun op => congrArg Grant.nativeId (hf op)
  refine refines_keys hk (fun _ h => h) fun _ => ?_
  have hmap := map_modify_of st.operationObjects o f Operation.grant Grant.doubt hf
  have hauth : (⟨st.modifyOperation o f, log⟩ : World).authority =
      { (⟨st, log⟩ : World).authority with
        grants := (⟨st, log⟩ : World).authority.grants.modify o Grant.doubt } := by
    unfold World.authority State.modifyOperation
    rw [hmap]
  rw [hauth]
  exact .single (.doubt o)

/- The texts issued for a proposal. -/
theorem refines_proposal (p : ℕ) (f : Proposal → Proposal)
    (hf : ∀ proposal, (f proposal).offer = proposal.offer) :
    Refines limit ⟨st, log⟩ ⟨st.modifyProposal p f, log⟩ := by
  have hkeys := map_modify st.proposalObjects p f Proposal.arguments fun proposal =>
    congrArg Offer.arguments (hf proposal)
  have hmap := map_modify st.proposalObjects p f Proposal.offer hf
  refine refines_keys ?_ (fun _ h => h) fun _ => ?_
  · show (st.modifyProposal p f).keys = st.keys
    unfold State.keys State.modifyProposal
    rw [hkeys]
  · have hauth : (⟨st.modifyProposal p f, log⟩ : World).authority
        = (⟨st, log⟩ : World).authority := by
      unfold World.authority State.modifyProposal
      rw [hmap]
    rw [hauth]

theorem authority_setRequest (i : ℕ) (state : RequestState) :
    (⟨st.setRequest i state, log⟩ : World).authority =
      { (⟨st, log⟩ : World).authority with
        callers := (⟨st, log⟩ : World).authority.callers.modify i (Caller.await state.call) } := by
  have hmap := map_modify_of st.requests i (fun r => { r with state := state }) Request.caller
    (Caller.await state.call) fun _ => rfl
  unfold World.authority State.setRequest
  rw [hmap]

theorem refines_leave (i : ℕ) (state : RequestState) (hcall : state.call = none) :
    Refines limit ⟨st, log⟩ ⟨st.setRequest i state, log⟩ := by
  refine refines_keys (keys_setRequest st i state) (fun _ h => h) fun _ => ?_
  rw [authority_setRequest, hcall]
  exact .single (.leave i)

theorem refines_wait (i n : ℕ) (token : Str) (c : BrokerCall) (op : Operation)
    (hn : st.calls[n]? = some c) (ho : st.operationObjects[c.operation]? = some op)
    (hsure : op.uncertain = false) :
    Refines limit ⟨st, log⟩ ⟨st.setRequest i (.waiting token n), log⟩ := by
  refine refines_keys (keys_setRequest st i _) (fun _ h => h) fun _ => ?_
  rw [authority_setRequest]
  refine .single (.wait i n c.errand op.grant ?_ ?_ hsure)
  · show (st.calls.map BrokerCall.errand)[n]? = some c.errand
    rw [List.getElem?_map, hn]
    rfl
  · show (st.operationObjects.map Operation.grant)[c.operation]? = some op.grant
    rw [List.getElem?_map, ho]
    rfl

theorem authority_setCall (n : ℕ) (state : CallState) (hstate : state.isScheduled = false) :
    (⟨st.setCall n state, log⟩ : World).authority =
      { (⟨st, log⟩ : World).authority with
        errands := (⟨st, log⟩ : World).authority.errands.modify n Errand.leave } := by
  have hmap := map_modify_of st.calls n (fun c => { c with state := state }) BrokerCall.errand
    Errand.leave fun c => by
      unfold BrokerCall.errand Errand.leave
      rw [hstate]
  unfold World.authority State.setCall
  rw [hmap]

theorem refines_call (n : ℕ) (state : CallState) (hstate : state.isScheduled = false) :
    Refines limit ⟨st, log⟩ ⟨st.setCall n state, log⟩ := by
  refine refines_keys rfl (fun _ h => h) fun _ => ?_
  rw [authority_setCall st log n state hstate]
  exact .single (.drop n)

/- Where the authority has its objects. -/
theorem grant_at (o : ℕ) (op : Operation) (h : st.operationObjects[o]? = some op) :
    (⟨st, log⟩ : World).authority.grants[o]? = some op.grant := by
  show (st.operationObjects.map Operation.grant)[o]? = some op.grant
  rw [List.getElem?_map, h]
  rfl

theorem offer_at (p : ℕ) (proposal : Proposal) (h : st.proposalObjects[p]? = some proposal) :
    (⟨st, log⟩ : World).authority.offers[p]? = some proposal.offer := by
  show (st.proposalObjects.map Proposal.offer)[p]? = some proposal.offer
  rw [List.getElem?_map, h]
  rfl

theorem errand_at (n : ℕ) (c : BrokerCall) (h : st.calls[n]? = some c) :
    (⟨st, log⟩ : World).authority.errands[n]? = some c.errand := by
  show (st.calls.map BrokerCall.errand)[n]? = some c.errand
  rw [List.getElem?_map, h]
  rfl

theorem caller_at (i : ℕ) (request : Request) (h : st.requests[i]? = some request) :
    (⟨st, log⟩ : World).authority.callers[i]? = some request.caller := by
  show (st.requests.map Request.caller)[i]? = some request.caller
  rw [List.getElem?_map, h]
  rfl

theorem refines_invoke (n : ℕ) (c : BrokerCall) (op : Operation) (hn : st.calls[n]? = some c)
    (hs : c.state = .scheduled) (ho : st.operationObjects[c.operation]? = some op) :
    Refines limit ⟨st, log⟩ ⟨st.setCall n .running, .invoked op.nativeId c.call :: log⟩ := by
  refine refines_keys rfl (fun _ h => log_old h nofun) fun _ => ?_
  have hsch : c.errand.scheduled = true := by
    unfold BrokerCall.errand
    rw [hs]
    rfl
  have hauth := authority_setCall st log n .running rfl
  have hmove : Move limit _ _ := .invoke n c.errand op.grant (errand_at st log n c hn) hsch
    (grant_at st log c.operation op ho)
  unfold World.authority at hauth hmove ⊢
  simp only [Authority.mk.injEq] at hauth
  simp only [hauth]
  exact .single hmove

theorem refines_answer (i o : ℕ) (request : Request) (op : Operation)
    (hi : st.requests[i]? = some request) (ho : st.operationObjects[o]? = some op)
    (hsure : op.uncertain = false) : Refines limit ⟨st, log⟩ ⟨st, .obtained i o :: log⟩ := by
  refine refines_keys rfl (fun _ h => log_old h nofun) fun _ => ?_
  have hlt := (List.getElem?_eq_some_iff.mp (caller_at st log i request hi)).1
  exact .single (.answer i o op.grant hlt (grant_at st log o op ho) hsure)

theorem refines_collect (i n : ℕ) (request : Request) (c : BrokerCall)
    (hi : st.requests[i]? = some request) (hw : request.state.call = some n)
    (hn : st.calls[n]? = some c) :
    Refines limit ⟨st, log⟩ ⟨st, .obtained i c.operation :: log⟩ := by
  refine refines_keys rfl (fun _ h => log_old h nofun) fun _ => ?_
  exact .single (.collect i n request.caller c.errand (caller_at st log i request hi) hw
    (errand_at st log n c hn))

theorem refines_schedule (i o : ℕ) (request : Request) (op : Operation) (call : ProviderToolCall)
    (hi : st.requests[i]? = some request) (ho : st.operationObjects[o]? = some op)
    (hsure : op.uncertain = false) (hnone : op.task = none) (hname : call.name = op.name)
    (hargs : call.arguments = op.arguments) :
    Refines limit ⟨st, log⟩ ⟨st.schedule o call, .scheduled i o :: log⟩ := by
  have hkeys := map_modify st.operationObjects o
    (fun op => { op with task := some st.calls.length }) Operation.nativeId fun _ => rfl
  have hmap := map_modify_of st.operationObjects o
    (fun op => { op with task := some st.calls.length }) Operation.grant
    (Grant.hold st.calls.length) fun _ => rfl
  refine refines_keys ?_ (fun _ h => log_old h nofun) fun _ => ?_
  · show (st.schedule o call).keys = st.keys
    unfold State.keys State.schedule
    rw [hkeys]
  · have hlt := (List.getElem?_eq_some_iff.mp (caller_at st log i request hi)).1
    have hmove : Move limit _ _ := .schedule i o op.grant call hlt (grant_at st log o op ho)
      hsure hnone hname hargs
    refine .single ?_
    unfold World.authority State.schedule at *
    simp only [List.length_map] at hmove
    rw [hmap, List.map_append]
    exact hmove

/-! ## The dictionaries grow -/

theorem indexed_put_auxiliary (k : Keys) (hx : Indexed k log) (native text : Str) :
    Indexed { k with auxiliaryNative := k.auxiliaryNative.put native text }
      (.echoed native :: log) where
  rows := hx.rows
  operations := hx.operations
  transport := hx.transport
  echoes native' he := by
    show (k.auxiliaryNative.put native text).get native' ≠ none
    by_cases heq : native' = native
    · rw [heq, Table.get_put_self]
      exact Option.some_ne_none text
    · rw [Table.get_put_ne _ _ heq]
      refine hx.echoes native' (log_old he fun hevent => ?_)
      exact heq (Event.echoed.inj hevent)

/- No operation is of this native identity. -/
theorem absent_native (hs : Sound ⟨st, log⟩) (hopen : st.closed = false) (native : Str)
    (hget : st.operations.get native = none) :
    ∀ g ∈ (⟨st, log⟩ : World).authority.grants, g.nativeId ≠ native := by
  intro g hg
  obtain ⟨op, hop, rfl⟩ := List.mem_map.mp hg
  have hx := hs.synced.opened hopen
  exact hx.operations.absent native hget op.nativeId (List.mem_map_of_mem hop)

theorem refines_echo (native text : Str) (hopen : st.closed = false)
    (hget : st.operations.get native = none) :
    Refines limit ⟨st, log⟩
      ⟨{ st with auxiliaryNative := st.auxiliaryNative.put native text }, .echoed native :: log⟩ := by
  intro hs
  refine ⟨⟨hs.synced.texts, hs.synced.readable, fun _ => ?_⟩, .single (.echo native ?_)⟩
  · exact indexed_put_auxiliary log st.keys (hs.synced.opened hopen) native text
  · exact absent_native st log hs hopen native hget

theorem refines_start (native print : Str) :
    Refines limit ⟨st, log⟩ ⟨{ st with started := st.started.put native print }, log⟩ :=
  refines_keys rfl (fun _ h => h) fun _ => .refl

theorem refines_take (limit' : ℕ) :
    Refines limit ⟨st, log⟩ ⟨{ st with invocations := limit' }, log⟩ :=
  refines_keys rfl (fun _ h => h) fun _ => .refl

theorem refines_propose (nonce name : Str) (arguments : Members) (htexts : Texts arguments) :
    Refines limit ⟨st, log⟩ ⟨st.propose nonce name arguments, log⟩ := by
  intro hs
  have hkeys : (st.propose nonce name arguments).keys =
      { st.keys with arguments := st.keys.arguments ++ [arguments] } := by
    unfold State.keys State.propose
    rw [List.map_append]
    rfl
  have hauth : (⟨st.propose nonce name arguments, log⟩ : World).authority =
      { (⟨st, log⟩ : World).authority with
        offers := (⟨st, log⟩ : World).authority.offers ++ [⟨name, arguments, none⟩] } := by
    unfold World.authority State.propose
    rw [List.map_append]
    rfl
  refine ⟨?_, ?_⟩
  · rw [hkeys]
    refine ⟨fun a ha => ?_, hs.synced.readable, fun hopen => ?_⟩
    · rcases List.mem_append.mp ha with hold | hone
      · exact hs.synced.texts a hold
      · rw [List.mem_singleton.mp hone]
        exact htexts
    · have hx := hs.synced.opened hopen
      exact ⟨hx.rows, hx.operations, hx.echoes, hx.transport⟩
  · rw [hauth]
    exact .single (.offer name arguments)

theorem refines_operate (native : Str) (proposal : Proposal) (hopen : st.closed = false)
    (hget : st.operations.get native = none) (hecho : st.auxiliaryNative.get native = none)
    (hroom : st.operations.rows.length < limit) :
    Refines limit ⟨st, log⟩ ⟨st.operate native proposal, log⟩ := by
  intro hs
  have hx := hs.synced.opened hopen
  have hkeys : (st.operate native proposal).keys =
      { st.keys with
        natives := st.keys.natives ++ [native]
        operations := st.keys.operations.put native st.keys.natives.length } := by
    unfold State.keys State.operate
    rw [List.map_append, List.length_map]
    rfl
  have hauth : (⟨st.operate native proposal, log⟩ : World).authority =
      { (⟨st, log⟩ : World).authority with
        grants := (⟨st, log⟩ : World).authority.grants ++
          [⟨native, proposal.name, proposal.arguments, none, false⟩] } := by
    unfold World.authority State.operate
    rw [List.map_append]
    rfl
  refine ⟨?_, ?_⟩
  · rw [hkeys]
    refine ⟨hs.synced.texts, hs.synced.readable, fun _ => ?_⟩
    refine ⟨?_, hx.operations.append native hget, hx.echoes, hx.transport⟩
    have hrows : (st.operations.put native st.keys.natives.length).rows =
        st.operations.rows ++ [(native, st.keys.natives.length)] :=
      Table.rows_put_absent _ _ _ hget
    have hlen : st.operations.rows.length = st.keys.natives.length := hx.rows
    show (st.operations.put native st.keys.natives.length).rows.length =
      (st.keys.natives ++ [native]).length
    rw [hrows, List.length_append, List.length_append, hlen]
    rfl
  · rw [hauth]
    refine .single (.create native proposal.name proposal.arguments ?_ ?_ ?_)
    · exact absent_native st log hs hopen native hget
    · intro he
      exact hx.echoes native he hecho
    · have hrows : st.operations.rows.length = (st.operationObjects.map Operation.nativeId).length :=
        hx.rows
      show (st.operationObjects.map Operation.grant).length < limit
      rw [List.length_map] at hrows ⊢
      omega

theorem refines_arrive (ident : Str) (requestId : Json) (params : Members)
    (hread : Json.All (Json.Readable true) (.obj params)) (hopen : st.closed = false)
    (hget : st.transport.get ident = none) :
    Refines limit ⟨st, log⟩ ⟨{ st with
      requests := st.requests ++ [⟨ident, requestId, params, .created⟩]
      transport := st.transport.put ident ⟨fingerprint params, st.requests.length⟩ }, log⟩ := by
  intro hs
  have hx := hs.synced.opened hopen
  have hkeys : ({ st with
      requests := st.requests ++ [⟨ident, requestId, params, .created⟩]
      transport := st.transport.put ident ⟨fingerprint params, st.requests.length⟩ } : State).keys =
      { st.keys with
        requests := st.keys.requests ++ [(ident, params)]
        transport := st.keys.transport.put ident
          ⟨fingerprint params, st.keys.requests.length⟩ } := by
    unfold State.keys
    rw [List.map_append, List.length_map]
    rfl
  refine ⟨?_, ?_⟩
  · show Synced ({ st with
      requests := st.requests ++ [⟨ident, requestId, params, .created⟩]
      transport := st.transport.put ident ⟨fingerprint params, st.requests.length⟩ } : State).keys log
    rw [hkeys]
    refine ⟨hs.synced.texts, fun r hr => ?_, fun _ => ?_⟩
    · rcases List.mem_append.mp hr with hold | hone
      · exact hs.synced.readable r hold
      · rw [List.mem_singleton.mp hone]
        exact hread
    · exact ⟨hx.rows, hx.operations, hx.echoes, hx.transport.append (ident, params) hget⟩
  · have hnew : ∀ c ∈ (⟨st, log⟩ : World).authority.callers, c.transportId ≠ ident := by
      intro c hc
      obtain ⟨request, hrequest, rfl⟩ := List.mem_map.mp hc
      exact hx.transport.absent ident hget (request.transportId, request.params)
        (List.mem_map_of_mem hrequest)
    have hmove : Move limit (⟨st, log⟩ : World).authority _ := .arrive ident hnew
    refine .single ?_
    unfold World.authority at hmove ⊢
    rw [List.map_append]
    exact hmove

theorem refines_bind (p o : ℕ) (proposal : Proposal) (op : Operation)
    (hp : st.proposalObjects[p]? = some proposal) (ho : st.operationObjects[o]? = some op)
    (hfree : ∀ o', proposal.operation = some o' → o' = o) (hname : op.name = proposal.name)
    (hargs : sameArguments op.arguments proposal.arguments = true) :
    Refines limit ⟨st, log⟩
      ⟨st.bind p o proposal, .bound p op.nativeId proposal.name proposal.arguments :: log⟩ := by
  have hauxiliary := map_modify st.operationObjects o (fun op =>
    { op with issuedAuxiliary := addIssued op.issuedAuxiliary proposal.issuedAuxiliary })
    Operation.grant fun _ => rfl
  have hnatives := map_modify st.operationObjects o (fun op =>
    { op with issuedAuxiliary := addIssued op.issuedAuxiliary proposal.issuedAuxiliary })
    Operation.nativeId fun _ => rfl
  have harguments := map_modify st.proposalObjects p (fun q => { q with operation := some o })
    Proposal.arguments fun _ => rfl
  have hoffers := map_modify_of st.proposalObjects p (fun q => { q with operation := some o })
    Proposal.offer (Offer.join o) fun _ => rfl
  refine refines_keys ?_ (fun _ h => log_old h nofun) fun _ => ?_
  · show (st.bind p o proposal).keys = st.keys
    unfold State.keys State.bind State.modifyProposal State.modifyOperation
    rw [hnatives, harguments]
  · have hmove : Move limit _ _ := .attach p o proposal.offer op.grant (offer_at st log p proposal hp)
      (grant_at st log o op ho) hfree hname hargs
    refine .single ?_
    unfold World.authority State.bind State.modifyProposal State.modifyOperation at *
    rw [hauxiliary, hoffers]
    exact hmove

end objects

end ParallelForge.Agents.Gemini
