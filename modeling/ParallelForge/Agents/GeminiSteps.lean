import ParallelForge.Agents.GeminiRefines

/-!
# Every step moves authority

One lemma for each method of the protocol, from the frames inwards.
-/

namespace ParallelForge.Agents.Gemini
open Base

/-! ## Arguments -/

theorem find_of_nodup (ms : Members) (h : (ms.map Prod.fst).Nodup) (p : Str × Json) (hp : p ∈ ms) :
    ms.find? (fun q => q.1 = p.1) = some p := by
  induction ms with
  | nil => cases hp
  | cons q ms ih =>
    rw [List.map_cons, List.nodup_cons] at h
    rcases List.mem_cons.mp hp with rfl | hin
    · exact List.find?_cons_of_pos (by simp)
    · have hne : q.1 ≠ p.1 := by
        intro heq
        exact h.1 (heq ▸ List.mem_map_of_mem hin)
      rw [List.find?_cons_of_neg (by simpa using hne)]
      exact ih h.2 hin

theorem sameArguments_self (a : Members) (h : Texts a) : sameArguments a a = true := by
  unfold sameArguments
  simp only [Bool.and_eq_true, decide_eq_true_eq, List.all_eq_true, true_and]
  intro p hp
  rw [find_of_nodup a h.1 p hp]
  have htext := h.2 p hp
  cases hv : p.2 with
  | str s => simp [hv]
  | _ => rw [hv] at htext; cases htext

theorem argumentsMatch_texts (name : Str) (arguments : Members)
    (hread : Json.All (Json.Readable true) (.obj arguments))
    (h : argumentsMatch name arguments = true) : Texts arguments := by
  refine ⟨hread.self.1, ?_⟩
  unfold argumentsMatch at h
  split at h
  · cases h
  · simp only [Bool.and_eq_true, List.all_eq_true] at h
    exact h.2

section protocol
variable {cfg : Config} (st : State) (log : List Event)

theorem take_eq_ok (st' : State) (h : take cfg st = .ok st') :
    st' = { st with invocations := st.invocations + 1 } := by
  simp only [take, bind_eq_ok] at h
  obtain ⟨-, -, h⟩ := h
  cases h
  rfl

theorem proposalArguments_eq_ok (name : Str) (arguments frozen : Members)
    (h : proposalArguments cfg st name arguments = .ok frozen) :
    argumentsMatch name arguments = true ∧ frozen = arguments := by
  simp only [proposalArguments, bind_eq_ok, require_eq_ok] at h
  obtain ⟨-, hmatch, ms, hms, -, -, h⟩ := h
  cases h
  have heq := freezeContext_eq_ok _ _ hms
  exact ⟨hmatch, (Json.obj.inj heq).symm⟩

theorem refines_prepare (nonce name : Str) (arguments : Members)
    (hread : Json.All (Json.Readable true) (.obj arguments)) :
    Refines cfg.callLimit ⟨st, log⟩ ⟨(prepare cfg st nonce name arguments).1, log⟩ := by
  unfold prepare
  cases htake : take cfg st with
  | error e => exact .refl _
  | ok taken =>
    have hstate := take_eq_ok st taken htake
    have htook : Refines cfg.callLimit ⟨st, log⟩ ⟨taken, log⟩ := by
      rw [hstate]
      exact refines_take st log _
    cases hargs : proposalArguments cfg taken name arguments with
    | error e => simpa only [hargs] using htook
    | ok frozen =>
      obtain ⟨hmatch, heq⟩ := proposalArguments_eq_ok taken name arguments frozen hargs
      subst heq
      have htexts := argumentsMatch_texts name frozen hread hmatch
      simpa only [hargs] using htook.trans (refines_propose taken log nonce name frozen htexts)

/-! ## ACP -/

theorem frameOf_eq_ok (line : Str) (frame : Members) (h : frameOf cfg st line = .ok frame) :
    st.closed = false ∧ Json.All (Json.Readable true) (.obj frame) := by
  simp only [frameOf, bind_eq_ok, require_eq_ok] at h
  obtain ⟨-, ⟨hopen, -⟩, ms, hms, -, -, h⟩ := h
  cases h
  exact ⟨hopen, parseJson_readable _ _ _ hms⟩

theorem acpUpdate_open (line : Str) (update : AcpUpdate) (h : acpUpdate cfg st line = .ok update) :
    st.closed = false := by
  simp only [acpUpdate, bind_eq_ok] at h
  obtain ⟨frame, hframe, -⟩ := h
  exact (frameOf_eq_ok st line frame hframe).1

theorem proposalFor_eq_some (nonce : Str) (p : ℕ) (proposal : Proposal)
    (h : st.proposalFor nonce = some (p, proposal)) : st.proposalObjects[p]? = some proposal := by
  unfold State.proposalFor at h
  split at h
  · cases h
  · obtain ⟨q, hq, heq⟩ := Option.map_eq_some_iff.mp h
    cases heq
    exact hq

theorem operationAt_eq_some (proposal : Proposal) (o : ℕ) (op : Operation)
    (h : st.operationAt proposal = some (o, op)) :
    proposal.operation = some o ∧ st.operationObjects[o]? = some op := by
  unfold State.operationAt at h
  split at h
  · cases h
  · next o' ho =>
    obtain ⟨q, hq, heq⟩ := Option.map_eq_some_iff.mp h
    cases heq
    exact ⟨ho, hq⟩

/- The dictionary has every operation under its native identity. -/
theorem operations_get (hs : Sound ⟨st, log⟩) (hopen : st.closed = false) (o : ℕ) (op : Operation)
    (ho : st.operationObjects[o]? = some op) : st.operations.get op.nativeId = some o := by
  have hx := hs.synced.opened hopen
  have hat : st.keys.natives[o]? = some op.nativeId := by
    show (st.operationObjects.map Operation.nativeId)[o]? = some op.nativeId
    rw [List.getElem?_map, ho]
    rfl
  exact hx.operations.get o op.nativeId hat

/- A proposal that was bound before is of the native identity it is bound to now. -/
theorem bound_before (hs : Sound ⟨st, log⟩) (hopen : st.closed = false) (native : Str) (p : ℕ)
    (proposal : Proposal) (hp : st.proposalObjects[p]? = some proposal)
    (hany : ¬ ((st.operationAt proposal).any fun b => b.2.nativeId ≠ native) = true) (o : ℕ)
    (ho : proposal.operation = some o) : st.operations.get native = some o := by
  obtain ⟨g, hg⟩ := hs.linked.joined p proposal.offer (offer_at st log p proposal hp) o ho
  have hmap : (st.operationObjects.map Operation.grant)[o]? = some g := hg
  rw [List.getElem?_map] at hmap
  obtain ⟨op, hop, -⟩ := Option.map_eq_some_iff.mp hmap
  have hat : st.operationAt proposal = some (o, op) := by
    unfold State.operationAt
    simp only [ho, hop, Option.map_some]
  rw [hat] at hany
  have hnative : op.nativeId = native := by simpa using hany
  rw [← hnative]
  exact operations_get st log hs hopen o op hop

theorem refines_bindProposal (native : Str) (body : Members) (hopen : st.closed = false) :
    Refines cfg.callLimit ⟨st, log⟩
      ⟨(bindProposal cfg st native body).state, (bindProposal cfg st native body).events ++ log⟩ := by
  unfold bindProposal
  split
  · exact .refl _
  · next nonce _ =>
    split
    · exact .refl _
    · next p proposal hfor =>
      have hp := proposalFor_eq_some st nonce p proposal hfor
      split
      · exact .refl _
      · next hfree =>
        have hecho : st.auxiliaryNative.get native = none := by
          by_contra hne
          exact hfree (.inl (Option.isSome_iff_ne_none.mpr hne))
        have hany := fun h => hfree (.inr h)
        simp only
        split
        · next hget =>
          split
          · exact .refl _
          · next hroom =>
            intro hs
            have htexts : Texts proposal.arguments := hs.synced.texts _
              (List.mem_map_of_mem (List.mem_of_getElem? hp))
            have hcreate : Refines cfg.callLimit ⟨st, log⟩ ⟨st.operate native proposal, log⟩ :=
              refines_operate st log native proposal hopen hget hecho (Nat.lt_of_not_le hroom)
            have hbind : Refines cfg.callLimit ⟨st.operate native proposal, log⟩
                ⟨(st.operate native proposal).bind p st.operationObjects.length proposal,
                  .bound p native proposal.name proposal.arguments :: log⟩ := by
              refine refines_bind (st.operate native proposal) log p st.operationObjects.length
                proposal ⟨native, proposal.name, proposal.arguments, none, none, false, []⟩ hp
                List.getElem?_concat_length ?_ rfl (sameArguments_self _ htexts)
              intro o' ho'
              have hbefore := bound_before st log hs hopen native p proposal hp hany o' ho'
              rw [hget] at hbefore
              cases hbefore
            exact hcreate.trans hbind hs
        · next o hget =>
          split
          · exact .refl _
          · next op hop =>
            split
            · next hsame =>
              intro hs
              have hx := hs.synced.opened hopen
              obtain ⟨i, n, hat, hn, hi⟩ := (hx.operations native o).mp hget
              have hmap : (st.operationObjects.map Operation.nativeId)[o]? = some native := by
                rw [← hi, ← hn]
                exact hat
              rw [List.getElem?_map, hop] at hmap
              have hnative : op.nativeId = native := Option.some.inj hmap
              subst hnative
              refine refines_bind st log p o proposal op hp hop ?_ hsame.1 hsame.2 hs
              intro o' ho'
              have hbefore := bound_before st log hs hopen op.nativeId p proposal hp hany o' ho'
              rw [hget] at hbefore
              exact (Option.some.inj hbefore).symm
            · exact .refl _

theorem refines_consumeAuxiliary (native text : Str) (body : Members) (hopen : st.closed = false) :
    Refines cfg.callLimit ⟨st, log⟩ ⟨(consumeAuxiliary cfg st native text body).state,
      (consumeAuxiliary cfg st native text body).events ++ log⟩ := by
  unfold consumeAuxiliary
  split
  · exact .refl _
  · split
    · exact .refl _
    · split
      · exact .refl _
      · next hfree =>
        have hget : st.operations.get native = none := by
          by_contra hne
          exact hfree (.inl (Option.isSome_iff_ne_none.mpr hne))
        split
        · split
          · exact .refl _
          · exact .refl _
        · split
          · exact .refl _
          · exact refines_echo st log native text hopen hget

theorem refines_receiveAcp (line : Str) :
    Refines cfg.callLimit ⟨st, log⟩
      ⟨(receiveAcp cfg st line).state, (receiveAcp cfg st line).events ++ log⟩ := by
  unfold receiveAcp
  split
  · exact .refl _
  · next native print _ =>
    split
    · split
      · exact .refl _
      · exact .refl _
    · split
      · exact .refl _
      · exact refines_start st log native print
  · next native text hupdate =>
    have hopen := acpUpdate_open st line _ hupdate
    split
    · exact .refl _
    · next body _ =>
      split
      · exact refines_bindProposal st log native body hopen
      · split
        · exact refines_consumeAuxiliary st log native text body hopen
        · exact .refl _

/-! ## MCP -/

theorem mcpCall_eq_ok (line : Str) (call : McpCall) (h : mcpCall cfg st line = .ok call) :
    st.closed = false ∧ Json.All (Json.Readable true) (.obj call.params) := by
  simp only [mcpCall, bind_eq_ok, require_eq_ok, orRaise_eq_ok] at h
  obtain ⟨-, hopen, frame, hframe, -, -, params, hparams, requestId, -, ident, -, -, -, h⟩ := h
  cases h
  have hread := (frameOf_eq_ok st line frame hframe).2
  exact ⟨hopen, readable_member "params" hread ((isObject_eq_some _ _).mp hparams)⟩

theorem refines_receiveMcp (line : Str) :
    Refines cfg.callLimit ⟨st, log⟩ ⟨(receiveMcp cfg st line).1, log⟩ := by
  unfold receiveMcp
  split
  · exact .refl _
  · next call hcall =>
    obtain ⟨hopen, hread⟩ := mcpCall_eq_ok st line call hcall
    split
    · split
      · exact .refl _
      · exact .refl _
    · next hget =>
      split
      · exact .refl _
      · exact refines_arrive st log call.transportId call.requestId call.params hread hopen hget

/-! ## The tasks -/

theorem refines_issue (p : ℕ) (proposal : Proposal) (text : Str) :
    Refines cfg.callLimit ⟨st, log⟩ ⟨st.issue p proposal text, log⟩ := by
  unfold State.issue
  split
  · exact refines_operation st log _ _ fun _ => rfl
  · exact refines_proposal st log p _ fun _ => rfl

theorem refines_doubted (proposal : Proposal) :
    Refines cfg.callLimit ⟨st, log⟩ ⟨st.doubt proposal, log⟩ := by
  unfold State.doubt
  split
  · exact refines_doubt st log _ _ fun _ => rfl
  · exact .refl _

theorem refines_issueReceipt (requestId : Json) (token : Str) (receipt : Members) :
    Refines cfg.callLimit ⟨st, log⟩ ⟨(issueReceipt cfg st requestId token receipt).1, log⟩ := by
  unfold issueReceipt
  split
  · exact .refl _
  · split
    · exact refines_doubted st log _
    · split
      · exact refines_doubted st log _
      · exact refines_issue st log _ _ _

theorem refines_finish (i : ℕ) (result : Except ProtocolError Json) :
    Refines cfg.callLimit ⟨st, log⟩ ⟨st.finish i result, log⟩ := by
  cases result with
  | ok sent => exact refines_leave st log i (.answered sent) rfl
  | error e => exact refines_leave st log i .raised rfl

theorem refines_issued (i : ℕ) (request : Request) (token : Str) (receipt : Members) :
    Refines cfg.callLimit ⟨st, log⟩ ⟨issue cfg st i request token receipt, log⟩ :=
  (refines_issueReceipt st log request.requestId token receipt).trans (refines_finish _ log i _)

theorem brokerCall_eq_ok (op : Operation) (call : ProviderToolCall)
    (h : brokerCall cfg op = .ok call) : call.name = op.name ∧ call.arguments = op.arguments := by
  simp only [brokerCall, bind_eq_ok] at h
  obtain ⟨-, -, ms, hms, h⟩ := h
  cases h
  have heq := freezeContext_eq_ok _ _ hms
  exact ⟨rfl, (Json.obj.inj heq).symm⟩

/- What `_execute` did, and how its request goes on. -/
theorem execute_cases (i : ℕ) (token : Str) (request : Request)
    (hi : st.requests[i]? = some request) :
    (∃ receipt events, execute cfg st i token = (st, .receipt receipt, events) ∧
      Refines cfg.callLimit ⟨st, log⟩ ⟨st, events ++ log⟩) ∨
    (∃ e, execute cfg st i token = (st, .raised e, [])) ∨
    (∃ st' n events, execute cfg st i token = (st', .wait n, events) ∧
      Refines cfg.callLimit ⟨st, log⟩ ⟨st'.setRequest i (.waiting token n), events ++ log⟩) := by
  unfold execute
  split
  · exact .inl ⟨notReady, [], rfl, .refl _⟩
  · next o op hfor =>
    obtain ⟨b, -, hat⟩ := Option.bind_eq_some_iff.mp hfor
    have ho := (operationAt_eq_some st b.2 o op hat).2
    split
    · exact .inl ⟨notReady, [], rfl, .refl _⟩
    · next hopen =>
      have hsure : op.uncertain = false := by
        cases hu : op.uncertain with
        | false => rfl
        | true => exact absurd (.inr hu) hopen
      split
      · next receipt _ =>
        exact .inl ⟨receipt, [.obtained i o], rfl, refines_answer st log i o request op hi ho hsure⟩
      · split
        · next n htask =>
          -- the operation's broker task is already there
          refine .inr (.inr ⟨st, n, [], rfl, fun hs => ?_⟩)
          obtain ⟨e, he, hgrant⟩ := hs.linked.errands o op.grant (grant_at st log o op ho) n htask
          have hmap : (st.calls.map BrokerCall.errand)[n]? = some e := he
          rw [List.getElem?_map] at hmap
          obtain ⟨c, hc, rfl⟩ := Option.map_eq_some_iff.mp hmap
          have hop : st.operationObjects[c.operation]? = some op := by
            rw [show c.operation = o from hgrant]
            exact ho
          exact refines_wait st log i n token c op hc hop hsure hs
        · next hnone =>
          split
          · next e _ => exact .inr (.inl ⟨e, rfl⟩)
          · next call hcall =>
            obtain ⟨hname, hargs⟩ := brokerCall_eq_ok op call hcall
            have hschedule : Refines cfg.callLimit ⟨st, log⟩
                ⟨st.schedule o call, .scheduled i o :: log⟩ :=
              refines_schedule st log i o request op call hi ho hsure hnone hname hargs
            have hat' := modify_at st.operationObjects o o
              (fun op => { op with task := some st.calls.length }) op ho
            rw [if_pos rfl] at hat'
            have hwait : Refines cfg.callLimit ⟨st.schedule o call, .scheduled i o :: log⟩
                ⟨(st.schedule o call).setRequest i (.waiting token st.calls.length),
                  .scheduled i o :: log⟩ :=
              refines_wait (st.schedule o call) _ i st.calls.length token ⟨o, call, .scheduled⟩ _
                List.getElem?_concat_length hat' hsure
            exact .inr (.inr ⟨_, _, _, rfl, hschedule.trans hwait⟩)

theorem refines_handleExecute (i : ℕ) (request : Request) (arguments : Members)
    (hi : st.requests[i]? = some request) :
    Refines cfg.callLimit ⟨st, log⟩ ⟨(handleExecute cfg st i request arguments).1,
      (handleExecute cfg st i request arguments).2 ++ log⟩ := by
  unfold handleExecute
  split
  · exact refines_leave st log i .raised rfl
  · next token _ =>
    cases htake : take cfg st with
    | error e => exact refines_leave st log i .raised rfl
    | ok taken =>
      have hstate := take_eq_ok st taken htake
      have hi' : taken.requests[i]? = some request := by
        rw [hstate]
        exact hi
      have htook : Refines cfg.callLimit ⟨st, log⟩ ⟨taken, log⟩ := by
        rw [hstate]
        exact refines_take st log _
      simp only
      have hcases := @execute_cases cfg taken log i token request hi'
      rcases hcases with ⟨receipt, events, heq, hmoves⟩ | ⟨e, heq⟩ | ⟨st', n, events, heq, hmoves⟩
      · rw [heq]
        exact (htook.trans hmoves).trans (refines_issued taken _ i request token receipt)
      · rw [heq]
        exact htook.trans (refines_leave taken log i .raised rfl)
      · rw [heq]
        exact htook.trans hmoves

theorem refines_handleMcp (i : ℕ) (request : Request) (nonce : Str)
    (hi : st.requests[i]? = some request) :
    Refines cfg.callLimit ⟨st, log⟩
      ⟨(handleMcp cfg st i request nonce).1, (handleMcp cfg st i request nonce).2 ++ log⟩ := by
  intro hs
  have hread : Json.All (Json.Readable true) (.obj request.params) :=
    hs.synced.readable (request.transportId, request.params)
      (List.mem_map.mpr ⟨request, List.mem_of_getElem? hi, rfl⟩)
  revert hs
  unfold handleMcp
  split
  · next name arguments hname hargs =>
    have hreadArgs := readable_member "arguments" hread ((isObject_eq_some _ _).mp hargs)
    split
    · exact refines_handleExecute st log i request arguments hi
    · exact (refines_prepare st log nonce name arguments hreadArgs).trans (refines_finish _ log i _)
  · exact refines_leave st log i .raised rfl

theorem refines_runRequest (i : ℕ) (nonce : Str) :
    Refines cfg.callLimit ⟨st, log⟩
      ⟨(runRequest cfg st i nonce).1, (runRequest cfg st i nonce).2 ++ log⟩ := by
  unfold runRequest
  split
  · exact .refl _
  · next request hi =>
    split
    · exact refines_handleMcp st log i request nonce hi
    · next token n hstate =>
      split
      · exact .refl _
      · next c hn =>
        split
        · exact .refl _
        · exact .refl _
        · exact refines_leave st log i .raised rfl
        · next receipt _ =>
          have hw : request.state.call = some n := by rw [hstate]; rfl
          exact (refines_collect st log i n request c hi hw hn).trans
            (refines_issued st _ i request token receipt)
    · exact .refl _
    · exact .refl _

end protocol

section broker
variable {limit : ℕ} (st : State) (log : List Event)

theorem refines_startCall (n : ℕ) :
    Refines limit ⟨st, log⟩ ⟨(startCall st n).1, (startCall st n).2 ++ log⟩ := by
  unfold startCall
  split
  · next c hn =>
    split
    · next op hs ho => exact refines_invoke st log n c op hn hs ho
    · exact .refl _
  · exact .refl _

theorem refines_uncertain (o n : ℕ) (state : CallState) (hstate : state.isScheduled = false) :
    Refines limit ⟨st, log⟩ ⟨(st.modifyOperation o uncertainOperation).setCall n state, log⟩ :=
  (refines_doubt st log o uncertainOperation fun _ => rfl).trans (refines_call _ log n state hstate)

theorem refines_settleCall (n : ℕ) (reply : BrokerReply) :
    Refines limit ⟨st, log⟩ ⟨settleCall st n reply, log⟩ := by
  unfold settleCall
  split
  · next o call _ =>
    split
    · exact refines_uncertain st log o n _ rfl
    · split
      · exact refines_uncertain st log o n _ rfl
      · exact refines_uncertain st log o n _ rfl
    · split
      · exact refines_uncertain st log o n _ rfl
      · split
        · exact refines_uncertain st log o n _ rfl
        · next receipt _ =>
          have hreceipt : Refines limit ⟨st, log⟩
              ⟨st.modifyOperation o fun op => { op with receipt := some receipt }, log⟩ :=
            refines_operation st log o _ fun _ => rfl
          exact hreceipt.trans (refines_call _ log n _ rfl)
    · exact refines_uncertain st log o n _ rfl
  · exact .refl _

theorem refines_cancelRequest (i : ℕ) :
    Refines limit ⟨st, log⟩ ⟨cancelRequest st i, log⟩ := by
  unfold cancelRequest
  split
  · split
    · exact refines_leave st log i .raised rfl
    · exact refines_leave st log i .raised rfl
    · exact .refl _
    · exact .refl _
  · exact .refl _

theorem refines_cancelCall (n : ℕ) : Refines limit ⟨st, log⟩ ⟨cancelCall st n, log⟩ := by
  unfold cancelCall
  split
  · exact refines_call st log n .raised rfl
  · exact .refl _

theorem refines_close : Refines limit ⟨st, log⟩ ⟨close st, log⟩ := by
  intro hs
  exact ⟨⟨hs.synced.texts, hs.synced.readable, nofun⟩, .refl⟩

end broker

/-! ## Runs -/

section runs
variable (cfg : Config)

theorem step_refines (w : World) (input : Input) :
    Refines cfg.callLimit w (w.step cfg input) := by
  cases input with
  | acp line => exact refines_receiveAcp w.state w.log line
  | mcp line => exact refines_receiveMcp w.state w.log line
  | request i nonce => exact refines_runRequest w.state w.log i nonce
  | start n => exact refines_startCall w.state w.log n
  | settle n reply => exact refines_settleCall w.state w.log n reply
  | cancelRequest i => exact refines_cancelRequest w.state w.log i
  | cancelCall n => exact refines_cancelCall w.state w.log n
  | close => exact refines_close w.state w.log

theorem run_refines (inputs : List Input) (w : World) :
    Refines cfg.callLimit w (inputs.foldl (World.step cfg) w) := by
  induction inputs generalizing w with
  | nil => exact .refl w
  | cons input inputs ih => exact (step_refines cfg w input).trans (ih (w.step cfg input))

theorem sound_init : Sound World.init where
  synced := ⟨nofun, nofun, fun _ => ⟨rfl, by simp [IndexOf, World.init, State.init, State.keys],
    nofun, by simp [IndexOf, World.init, State.init, State.keys]⟩⟩
  linked := linked_init

def World.run (inputs : List Input) : World := inputs.foldl (World.step cfg) World.init

theorem run_sound (inputs : List Input) : Sound (World.run cfg inputs) :=
  (run_refines cfg inputs World.init).sound sound_init

theorem run_authority (inputs : List Input) :
    AuthorityInv cfg.callLimit (World.run cfg inputs).authority :=
  authorityInv_moves (authorityInv_init _) _ (run_refines cfg inputs World.init sound_init).2

theorem run_append (earlier later : List Input) :
    Moves cfg.callLimit (World.run cfg earlier).authority
      (World.run cfg (earlier ++ later)).authority := by
  unfold World.run
  rw [List.foldl_append]
  exact (run_refines cfg later _ (run_sound cfg earlier)).2

/- What an accepted frame is answered with, when its transport identity is known. -/
theorem receiveMcp_replay (inputs : List Input) (line : Str) (call : McpCall) (i : ℕ)
    (request : Request) (hcall : mcpCall cfg (World.run cfg inputs).state line = .ok call)
    (hi : (World.run cfg inputs).state.requests[i]? = some request)
    (hident : request.transportId = call.transportId) :
    (Json.Same (.obj request.params) (.obj call.params) →
      receiveMcp cfg (World.run cfg inputs).state line = ((World.run cfg inputs).state, .ok i)) ∧
    (¬ Json.Same (.obj request.params) (.obj call.params) →
      receiveMcp cfg (World.run cfg inputs).state line =
        ((World.run cfg inputs).state, .error ⟨"conflicting Gemini MCP replay"⟩)) := by
  have hsound := run_sound cfg inputs
  generalize World.run cfg inputs = w at hcall hi hsound ⊢
  obtain ⟨hopen, hread⟩ := mcpCall_eq_ok w.state line call hcall
  have hx := hsound.synced.opened hopen
  have hat : w.state.keys.requests[i]? = some (request.transportId, request.params) := by
    show (w.state.requests.map fun r => (r.transportId, r.params))[i]? = _
    rw [List.getElem?_map, hi]
    rfl
  have hget : w.state.transport.get call.transportId = some ⟨fingerprint request.params, i⟩ := by
    rw [← hident]
    exact hx.transport.get i _ hat
  have hprint : fingerprint request.params = fingerprint call.params ↔
      Json.Same (.obj request.params) (.obj call.params) := by
    have hreadOld := hsound.synced.readable _ (List.mem_of_getElem? hat)
    exact Json.render_sortKeys_inj true _ _ hreadOld hread
  unfold receiveMcp
  simp only [hcall, hget]
  constructor
  · intro hsame
    rw [if_pos (hprint.mpr hsame)]
  · intro hdiff
    rw [if_neg fun heq => hdiff (hprint.mp heq)]

/-- The authority for effects over a run `earlier`, continued by `later`. -/
structure EffectAuthority (earlier later : List Input) : Prop where
  once : ((World.run cfg earlier).log.filterMap Event.invokedNative).Nodup
  limit : ((World.run cfg earlier).log.filterMap Event.invokedNative).length ≤ cfg.callLimit
  agrees : ∀ nativeId call p name arguments,
    .invoked nativeId call ∈ (World.run cfg earlier).log →
    .bound p nativeId name arguments ∈ (World.run cfg earlier).log →
    call.name = name ∧ sameArguments call.arguments arguments = true
  bound : ∀ p nativeId nativeId' name name' arguments arguments',
    .bound p nativeId name arguments ∈ (World.run cfg earlier).log →
    .bound p nativeId' name' arguments' ∈ (World.run cfg earlier).log → nativeId = nativeId'
  apart : ∀ op ∈ (World.run cfg earlier).state.operationObjects,
    .echoed op.nativeId ∉ (World.run cfg earlier).log
  operations : ∀ p nativeId name arguments,
    .bound p nativeId name arguments ∈ (World.run cfg earlier).log →
    ∃ op ∈ (World.run cfg earlier).state.operationObjects, op.nativeId = nativeId
  uncertain : ∀ (o : ℕ) (op : Operation),
    (World.run cfg earlier).state.operationObjects[o]? = some op → op.uncertain = true →
    ∀ i, (World.run cfg earlier).state.requests.length ≤ i →
      .obtained i o ∉ (World.run cfg (earlier ++ later)).log ∧
      .scheduled i o ∉ (World.run cfg (earlier ++ later)).log
  transports : ((World.run cfg earlier).state.requests.map Request.transportId).Nodup
  replay : ∀ line call i request, mcpCall cfg (World.run cfg earlier).state line = .ok call →
    (World.run cfg earlier).state.requests[i]? = some request →
    request.transportId = call.transportId →
    (Json.Same (.obj request.params) (.obj call.params) →
      receiveMcp cfg (World.run cfg earlier).state line = ((World.run cfg earlier).state, .ok i)) ∧
    (¬ Json.Same (.obj request.params) (.obj call.params) →
      receiveMcp cfg (World.run cfg earlier).state line =
        ((World.run cfg earlier).state, .error ⟨"conflicting Gemini MCP replay"⟩))

end runs

section law
variable {limit : ℕ} {a : Authority}

/- A grant is found by its native identity. -/
theorem grant_unique (hi : AuthorityInv limit a) (o o' : ℕ) (g g' : Grant)
    (ho : a.grants[o]? = some g) (ho' : a.grants[o']? = some g') (h : g.nativeId = g'.nativeId) :
    g = g' := by
  have hg : g ∈ a.grants := List.mem_of_getElem? ho
  have hg' : g' ∈ a.grants := List.mem_of_getElem? ho'
  exact List.inj_on_of_nodup_map hi.natives hg hg' h

theorem invoked_agrees (hi : AuthorityInv limit a) (nativeId : Str) (call : ProviderToolCall)
    (p : ℕ) (name : Str) (arguments : Members) (hinvoked : .invoked nativeId call ∈ a.log)
    (hbound : .bound p nativeId name arguments ∈ a.log) :
    call.name = name ∧ sameArguments call.arguments arguments = true := by
  obtain ⟨n, e, g, hn, -, hcall, hg, hnative⟩ := hi.invoked nativeId call hinvoked
  obtain ⟨offer, o, g', -, -, hg', hnative', hname, hargs⟩ :=
    hi.bound p nativeId name arguments hbound
  obtain ⟨g'', hat, -, hcallName, hcallArgs⟩ := hi.errands n e hn
  rw [hg] at hat
  cases hat
  have hsame : g = g' := grant_unique hi _ _ g g' hg hg' (hnative.trans hnative'.symm)
  subst hsame
  subst hcall
  rw [hcallName, hcallArgs]
  exact ⟨hname, hargs⟩

theorem bound_once (hi : AuthorityInv limit a) (p : ℕ) (nativeId nativeId' name name' : Str)
    (arguments arguments' : Members) (h : .bound p nativeId name arguments ∈ a.log)
    (h' : .bound p nativeId' name' arguments' ∈ a.log) : nativeId = nativeId' := by
  obtain ⟨offer, o, g, hp, ho, hg, hnative, -⟩ := hi.bound p nativeId name arguments h
  obtain ⟨offer', o', g', hp', ho', hg', hnative', -⟩ := hi.bound p nativeId' name' arguments' h'
  rw [hp] at hp'
  cases hp'
  rw [ho] at ho'
  cases ho'
  rw [hg] at hg'
  cases hg'
  exact hnative.symm.trans hnative'

end law

/-- Exactly one effect for a native call, whatever the order of the two channels. -/
theorem gemini_effect_authority (cfg : Config) (earlier later : List Input) :
    EffectAuthority cfg earlier later where
  once := (run_authority cfg earlier).once
  limit := invocations_le (run_authority cfg earlier)
  agrees := invoked_agrees (run_authority cfg earlier)
  bound := bound_once (run_authority cfg earlier)
  apart op hop he :=
    (run_authority cfg earlier).apart op.nativeId he op.grant (List.mem_map_of_mem hop) rfl
  operations p nativeId name arguments h := by
    obtain ⟨_, _, g, _, _, hg, hnative, _⟩ :=
      (run_authority cfg earlier).bound p nativeId name arguments h
    obtain ⟨op, hop, rfl⟩ := List.mem_map.mp (List.mem_of_getElem? hg)
    exact ⟨op, hop, hnative⟩
  uncertain o op ho hu i hk := by
    have hat := grant_at (World.run cfg earlier).state (World.run cfg earlier).log o op ho
    have hshut := shut_of_uncertain (run_authority cfg earlier) op.grant hat hu
    have hlater := shut_moves hshut _ (run_append cfg earlier later)
    refine hlater.silent i ?_
    show ((World.run cfg earlier).state.requests.map Request.caller).length ≤ i
    rw [List.length_map]
    exact hk
  transports := by
    have hidents := (run_authority cfg earlier).idents
    have hmap : (World.run cfg earlier).authority.callers.map Caller.transportId =
        (World.run cfg earlier).state.requests.map Request.transportId := List.map_map
    rw [hmap] at hidents
    exact hidents
  replay := receiveMcp_replay cfg earlier

end ParallelForge.Agents.Gemini
