import ParallelForge.Agents.ClaudeProtocol
import ParallelForge.Base.Run

/-!
# Call identity over a stream

What a line can do is one of nine changes. From each of them: the handshake
stands complete below every handler call, the tables of the codec hold exactly
the registered calls, and one call key has one name and one set of arguments.
-/

namespace ParallelForge.Agents
open Base

def Event.handshakeStep : Event → Option Handshake
  | .handshake step => some step
  | _ => none

def Event.requestId : Event → Option Str
  | .request requestId _ => some requestId
  | _ => none

/-- The changes of an MCP message. -/
inductive McpMoves (cfg : ClaudeConfig) (st : ClaudeState) : ClaudeState → List Event → Prop
  | refused : McpMoves cfg st st []
  | initializeRequest (h : st.initialized = false) :
      McpMoves cfg st { st with initialized := true } [.handshake .initializeRequest]
  | initialized (h : st.initialized = true) (hn : st.initializationNotificationSeen = false) :
      McpMoves cfg st { st with initializationNotificationSeen := true } [.handshake .initialized]
  | toolsList (h : st.initializationNotificationSeen = true) (hn : st.toolsListSeen = false) :
      McpMoves cfg st { st with toolsListSeen := true } [.handshake .toolsList]
  | conflict (text : Str) : McpMoves cfg st st [.hashed text]
  | registered (ident : Json) (toolUseId name : Str) (arguments : Members) (st' : ClaudeState)
      (events : List Event) (hl : st.toolsListSeen = true) (hname : name ∈ cfg.tools)
      (hread : Json.All (Json.Readable true) ident ∧
        Json.All (Json.Readable true) (.obj arguments))
      (hr : register st ident name arguments toolUseId (callKey cfg ident toolUseId) = .ok st')
      (he : events = [] ∨ ∃ call, events = [.called ident toolUseId call] ∧
        call.callKey = callKey cfg ident toolUseId ∧ call.name = name ∧ call.arguments = arguments) :
      McpMoves cfg st st' (events ++
        [.registered ident toolUseId (callKey cfg ident toolUseId) name arguments,
          .hashed (keyText ident toolUseId)])

/-- The changes of a line. -/
inductive Moves (cfg : ClaudeConfig) (st : ClaudeState) : ClaudeState → List Event → Prop
  | quiet : Moves cfg st st []
  | terminal (frame : Members) : Moves cfg st { st with terminal := some frame } []
  | control (requestId : Str) (request : Json) (st' : ClaudeState) (events : List Event)
      (hnew : requestId ∉ st.requests)
      (h : McpMoves cfg { st with requests := requestId :: st.requests } st' events) :
      Moves cfg st st' (events ++ [.request requestId request])

section inversion
variable {cfg : ClaudeConfig} {handler : ProviderToolCall → HandlerResult}

theorem mcpMethod_readable (message params : Members) (method : Str)
    (hread : Json.All (Json.Readable true) (.obj message))
    (h : mcpMethod message = .ok (method, params)) :
    Json.All (Json.Readable true) (.obj params) := by
  simp only [mcpMethod, bind_eq_ok] at h
  obtain ⟨_, -, h⟩ := h
  split at h
  · next m p _ hp =>
    cases h
    cases hm : member message "params" with
    | none =>
      rw [hm] at hp
      cases hp
      exact ⟨⟨List.nodup_nil, rfl, fun k hk => by cases hk⟩, trivial⟩
    | some v =>
      rw [hm] at hp
      cases hp
      exact readable_member "params" hread hm
  · cases h

theorem mcpIdent_readable (message : Members) (ident : Json)
    (hread : Json.All (Json.Readable true) (.obj message)) (h : mcpIdent message = .ok ident) :
    Json.All (Json.Readable true) ident := by
  unfold mcpIdent at h
  split at h
  · next v hv =>
    split at h
    · cases h
      exact member_all _ message hread "id" _ hv
    · cases h
  · cases h

/- A tool call that passed the checks. -/
theorem mcpToolsCall_eq_ok (st : ClaudeState) (ident : Json) (method : Str) (params : Members)
    (r : McpRequest) (hread : Json.All (Json.Readable true) (.obj params))
    (h : mcpToolsCall cfg st ident method params = .ok r) :
    ∃ name arguments toolUseId, r = .toolsCall ident name arguments toolUseId ∧
      st.toolsListSeen = true ∧ name ∈ cfg.tools ∧
      Json.All (Json.Readable true) (.obj arguments) := by
  simp only [mcpToolsCall, bind_eq_ok, require_eq_ok] at h
  obtain ⟨_, -, _, hl, h⟩ := h
  split at h
  · next name arguments _ ha =>
    simp only [bind_eq_ok, require_eq_ok] at h
    obtain ⟨_, hname, toolUseId, -, h⟩ := h
    cases h
    exact ⟨name, arguments, toolUseId, rfl, hl, hname, readable_member "arguments" hread ha⟩
  · cases h

theorem toolsCall_moves (st : ClaudeState) (ident : Json) (name : Str) (arguments : Members)
    (toolUseId : Str) (hl : st.toolsListSeen = true) (hname : name ∈ cfg.tools)
    (hread : Json.All (Json.Readable true) ident ∧ Json.All (Json.Readable true) (.obj arguments)) :
    McpMoves cfg st (toolsCall cfg handler st ident name arguments toolUseId).state
      (toolsCall cfg handler st ident name arguments toolUseId).events := by
  simp only [toolsCall]
  cases hr : register st ident name arguments toolUseId (callKey cfg ident toolUseId) with
  | error e => exact .conflict _
  | ok st' =>
    simp only
    cases hc : providerToolCall cfg (callKey cfg ident toolUseId) name arguments with
    | error e =>
      exact .registered ident toolUseId name arguments st' [] hl hname hread hr (Or.inl rfl)
    | ok call =>
      simp only [providerToolCall, bind_eq_ok] at hc
      obtain ⟨_, -, args, ha, hc⟩ := hc
      have hargs : args = arguments := by
        have := freezeContext_eq_ok _ _ ha
        cases this
        rfl
      have hcall : call.callKey = callKey cfg ident toolUseId ∧ call.name = name ∧
          call.arguments = arguments := by
        cases hc
        exact ⟨rfl, rfl, hargs⟩
      exact .registered ident toolUseId name arguments st' [.called ident toolUseId call] hl hname
        hread hr (Or.inr ⟨call, rfl, hcall⟩)

theorem mcp_moves (st : ClaudeState) (message : Members)
    (hread : Json.All (Json.Readable true) (.obj message)) :
    McpMoves cfg st (mcp cfg handler st message).state (mcp cfg handler st message).events := by
  unfold mcp
  cases h : mcpRequest cfg st message with
  | error e => exact .refused
  | ok r =>
    simp only [mcpRequest, bind_eq_ok] at h
    obtain ⟨⟨method, params⟩, hmethod, h⟩ := h
    have hparams := mcpMethod_readable message params method hread hmethod
    simp only at h
    split at h
    · simp only [bind_eq_ok, require_eq_ok] at h
      obtain ⟨_, ⟨-, -, hi, hn⟩, h⟩ := h
      cases h
      exact .initialized hi hn
    · simp only [bind_eq_ok] at h
      obtain ⟨ident, hident, h⟩ := h
      have hreadIdent := mcpIdent_readable message ident hread hident
      split at h
      · unfold mcpInitialize at h
        split at h
        · simp only [bind_eq_ok, require_eq_ok] at h
          obtain ⟨_, -, _, hi, h⟩ := h
          cases h
          exact .initializeRequest hi
        · cases h
      · simp only [bind_eq_ok, require_eq_ok] at h
        obtain ⟨_, hi, h⟩ := h
        split at h
        · simp only [bind_eq_ok, require_eq_ok] at h
          obtain ⟨_, ⟨-, hs, hn⟩, h⟩ := h
          cases h
          exact .toolsList hs hn
        · obtain ⟨name, arguments, toolUseId, rfl, hl, hname, hargs⟩ :=
            mcpToolsCall_eq_ok st ident method params r hparams h
          exact toolsCall_moves st ident name arguments toolUseId hl hname ⟨hreadIdent, hargs⟩

theorem controlRequest_moves (st : ClaudeState) (frame : Members)
    (hread : Json.All (Json.Readable true) (.obj frame)) :
    Moves cfg st (controlRequest cfg handler st frame).state
      (controlRequest cfg handler st frame).events := by
  unfold controlRequest
  cases hi : controlIdentity st frame with
  | error e => exact .quiet
  | ok p =>
    obtain ⟨requestId, request⟩ := p
    simp only [controlIdentity, bind_eq_ok] at hi
    obtain ⟨_, -, hi⟩ := hi
    split at hi
    · next rid req hrid hreq =>
      simp only [bind_eq_ok, require_eq_ok] at hi
      obtain ⟨_, ⟨-, hnew⟩, _, -, hi⟩ := hi
      cases hi
      rw [isObject_eq_some] at hreq
      have hreadRequest := readable_member "request" hread hreq
      cases hm : controlMessage request with
      | error e =>
        simp only [hm]
        exact .control requestId (.obj request) _ [] hnew .refused
      | ok message =>
        simp only [hm]
        unfold controlMessage at hm
        split at hm
        · next m hmsg =>
          simp only [bind_eq_ok] at hm
          obtain ⟨_, -, hm⟩ := hm
          cases hm
          rw [isObject_eq_some] at hmsg
          exact .control requestId (.obj request) _ _ hnew
            (mcp_moves _ message (readable_member "message" hreadRequest hmsg))
        · cases hm
    · cases hi

theorem receive_moves (st : ClaudeState) (line : Str) :
    Moves cfg st (receive cfg handler st line).state (receive cfg handler st line).events := by
  unfold receive
  split
  · exact .quiet
  · split
    · exact .quiet
    · split
      · exact .quiet
      · split
        · exact .quiet
        · next frame hframe =>
          have hread := parseJson_readable cfg.readFloat line frame hframe
          unfold receiveFrame
          simp only
          split
          · exact controlRequest_moves st frame hread
          · split
            · split
              · exact .quiet
              · exact .terminal frame
            · split
              · exact .quiet
              · split
                · exact .quiet
                · split
                  · exact .quiet
                  · exact .quiet

end inversion

/-- The handshake as the flags tell it, latest first. -/
def ClaudeState.handshakes (st : ClaudeState) : List Handshake :=
  (if st.toolsListSeen then [.toolsList] else []) ++
    ((if st.initializationNotificationSeen then [.initialized] else []) ++
      if st.initialized then [.initializeRequest] else [])

/-- Below every handler call stand the whole handshake and its registration. -/
def CallsAfter : List Event → Prop
  | [] => True
  | e :: log =>
    (match e with
      | .called ident toolUseId call =>
        log.filterMap Event.handshakeStep = [.toolsList, .initialized, .initializeRequest] ∧
          .registered ident toolUseId call.callKey call.name call.arguments ∈ log
      | _ => True) ∧ CallsAfter log

/-- What the tables hold of a registered call. -/
structure Bound (cfg : ClaudeConfig) (st : ClaudeState) (log : List Event) (ident : Json)
    (toolUseId key name : Str) (arguments : Members) : Prop where
  derived : key = callKey cfg ident toolUseId
  tool : name ∈ cfg.tools
  readable : Json.All (Json.Readable true) ident ∧ Json.All (Json.Readable true) (.obj arguments)
  hashed : .hashed (keyText ident toolUseId) ∈ log
  call : st.calls.get key = some (fingerprint name arguments toolUseId)
  use : st.toolUseIds.get toolUseId = some key
  back : st.callToolUseIds.get key = some toolUseId
  mcp : st.mcpIds.get (mcpId ident) = some key

/-- Every entry of a table is of a registered call. -/
structure Entries (st : ClaudeState) (log : List Event) : Prop where
  use : ∀ t k, st.toolUseIds.get t = some k → ∃ i n a, .registered i t k n a ∈ log
  back : ∀ k t, st.callToolUseIds.get k = some t → ∃ i n a, .registered i t k n a ∈ log
  mcp : ∀ m k, st.mcpIds.get m = some k → ∃ i t n a, m = mcpId i ∧ .registered i t k n a ∈ log
  call : ∀ k f, st.calls.get k = some f →
    ∃ i t n a, f = fingerprint n a t ∧ .registered i t k n a ∈ log

structure ClaudeInv (cfg : ClaudeConfig) (w : ClaudeWorld) : Prop where
  requests : w.log.filterMap Event.requestId = w.state.requests
  fresh : w.state.requests.Nodup
  handshakes : w.log.filterMap Event.handshakeStep = w.state.handshakes
  listed : w.state.toolsListSeen = true → w.state.initializationNotificationSeen = true
  notified : w.state.initializationNotificationSeen = true → w.state.initialized = true
  called : CallsAfter w.log
  bound : ∀ i t k n a, .registered i t k n a ∈ w.log → Bound cfg w.state w.log i t k n a
  entries : Entries w.state w.log

section invariant
variable {cfg : ClaudeConfig}

theorem claudeInv_init : ClaudeInv cfg ClaudeWorld.init := by
  refine ⟨rfl, List.nodup_nil, rfl, fun h => h, fun h => h, trivial, fun i t k n a h => ?_,
    fun t k h => ?_, fun k t h => ?_, fun m k h => ?_, fun k f h => ?_⟩
  · cases h
  · cases h
  · cases h
  · cases h
  · cases h

theorem Bound.weaken {st st' : ClaudeState} {log log' : List Event} {i : Json} {t k n : Str}
    {a : Members} (h : Bound cfg st log i t k n a) (hlog : ∀ e ∈ log, e ∈ log')
    (hc : st'.calls = st.calls) (hu : st'.toolUseIds = st.toolUseIds)
    (hb : st'.callToolUseIds = st.callToolUseIds) (hm : st'.mcpIds = st.mcpIds) :
    Bound cfg st' log' i t k n a :=
  ⟨h.derived, h.tool, h.readable, hlog _ h.hashed, by rw [hc]; exact h.call, by rw [hu]; exact h.use,
    by rw [hb]; exact h.back, by rw [hm]; exact h.mcp⟩

theorem Entries.weaken {st st' : ClaudeState} {log log' : List Event} (h : Entries st log)
    (hlog : ∀ e ∈ log, e ∈ log') (hc : st'.calls = st.calls) (hu : st'.toolUseIds = st.toolUseIds)
    (hb : st'.callToolUseIds = st.callToolUseIds) (hm : st'.mcpIds = st.mcpIds) :
    Entries st' log' := by
  refine ⟨fun t k hg => ?_, fun k t hg => ?_, fun m k hg => ?_, fun k f hg => ?_⟩
  · obtain ⟨i, n, a, hr⟩ := h.use t k (hu ▸ hg)
    exact ⟨i, n, a, hlog _ hr⟩
  · obtain ⟨i, n, a, hr⟩ := h.back k t (hb ▸ hg)
    exact ⟨i, n, a, hlog _ hr⟩
  · obtain ⟨i, t, n, a, hi, hr⟩ := h.mcp m k (hm ▸ hg)
    exact ⟨i, t, n, a, hi, hlog _ hr⟩
  · obtain ⟨i, t, n, a, hf, hr⟩ := h.call k f (hc ▸ hg)
    exact ⟨i, t, n, a, hf, hlog _ hr⟩

/- An event that registers nothing, with a state that keeps the tables. -/
theorem ClaudeInv.push (w : ClaudeWorld) (hi : ClaudeInv cfg w) (st : ClaudeState) (e : Event)
    (hc : st.calls = w.state.calls) (hu : st.toolUseIds = w.state.toolUseIds)
    (hb : st.callToolUseIds = w.state.callToolUseIds) (hm : st.mcpIds = w.state.mcpIds)
    (hne : ∀ i t k n a, e ≠ .registered i t k n a) :
    (∀ i t k n a, .registered i t k n a ∈ e :: w.log → Bound cfg st (e :: w.log) i t k n a) ∧
      Entries st (e :: w.log) := by
  have hlog : ∀ x ∈ w.log, x ∈ e :: w.log := fun x hx => List.mem_cons_of_mem e hx
  refine ⟨fun i t k n a h => ?_, hi.entries.weaken hlog hc hu hb hm⟩
  rcases List.mem_cons.mp h with h | h
  · exact absurd h.symm (hne i t k n a)
  · exact (hi.bound i t k n a h).weaken hlog hc hu hb hm

theorem inv_request (w : ClaudeWorld) (hi : ClaudeInv cfg w) (requestId : Str) (request : Json)
    (hnew : requestId ∉ w.state.requests) :
    ClaudeInv cfg ⟨{ w.state with requests := requestId :: w.state.requests },
      .request requestId request :: w.log⟩ := by
  obtain ⟨hbound, hentries⟩ := hi.push w { w.state with requests := requestId :: w.state.requests }
    (.request requestId request) rfl rfl rfl rfl (fun _ _ _ _ _ h => by cases h)
  exact ⟨congrArg (requestId :: ·) hi.requests, List.nodup_cons.mpr ⟨hnew, hi.fresh⟩, hi.handshakes,
    hi.listed, hi.notified, ⟨trivial, hi.called⟩, hbound, hentries⟩

theorem inv_hashed (w : ClaudeWorld) (hi : ClaudeInv cfg w) (text : Str) :
    ClaudeInv cfg ⟨w.state, .hashed text :: w.log⟩ := by
  obtain ⟨hbound, hentries⟩ := hi.push w w.state (.hashed text) rfl rfl rfl rfl
    (fun _ _ _ _ _ h => by cases h)
  exact ⟨hi.requests, hi.fresh, hi.handshakes, hi.listed, hi.notified, ⟨trivial, hi.called⟩, hbound,
    hentries⟩

theorem inv_handshake (w : ClaudeWorld) (hi : ClaudeInv cfg w) (st : ClaudeState) (step : Handshake)
    (hc : st.calls = w.state.calls) (hu : st.toolUseIds = w.state.toolUseIds)
    (hb : st.callToolUseIds = w.state.callToolUseIds) (hm : st.mcpIds = w.state.mcpIds)
    (hr : st.requests = w.state.requests) (hs : st.handshakes = step :: w.state.handshakes)
    (hl : st.toolsListSeen = true → st.initializationNotificationSeen = true)
    (hn : st.initializationNotificationSeen = true → st.initialized = true) :
    ClaudeInv cfg ⟨st, .handshake step :: w.log⟩ := by
  obtain ⟨hbound, hentries⟩ := hi.push w st (.handshake step) hc hu hb hm
    (fun _ _ _ _ _ h => by cases h)
  refine ⟨?_, ?_, ?_, hl, hn, ⟨trivial, hi.called⟩, hbound, hentries⟩
  · rw [hr]
    exact hi.requests
  · rw [hr]
    exact hi.fresh
  · rw [hs, ← hi.handshakes]
    rfl

theorem agreesWith_eq_true {α : Type} [DecidableEq α] (prior : Option α) (a b : α)
    (h : agreesWith prior a = true) (hb : prior = some b) : b = a := by
  simpa [agreesWith, hb] using h

/- The registration of a call keeps every earlier one. -/
theorem inv_registered (w : ClaudeWorld) (hi : ClaudeInv cfg w) (ident : Json)
    (toolUseId name : Str) (arguments : Members) (st : ClaudeState) (hname : name ∈ cfg.tools)
    (hread : Json.All (Json.Readable true) ident ∧ Json.All (Json.Readable true) (.obj arguments))
    (hh : .hashed (keyText ident toolUseId) ∈ w.log)
    (hr : register w.state ident name arguments toolUseId (callKey cfg ident toolUseId) = .ok st) :
    ClaudeInv cfg
      ⟨st, .registered ident toolUseId (callKey cfg ident toolUseId) name arguments :: w.log⟩ := by
  simp only [register, bind_eq_ok, require_eq_ok] at hr
  obtain ⟨_, huse, _, hmcp, _, hcall, _, -, hr⟩ := hr
  cases hr
  refine ⟨hi.requests, hi.fresh, hi.handshakes, hi.listed, hi.notified, ⟨trivial, hi.called⟩, ?_, ?_⟩
  · intro i t k n a h
    rcases List.mem_cons.mp h with h | h
    · cases h
      refine ⟨rfl, hname, hread, List.mem_cons_of_mem _ hh, ?_, ?_, ?_, ?_⟩
      · simp only [Table.get_put, ite_true]
      · simp only [Table.get_put, ite_true]
      · simp only [Table.get_put, ite_true]
      · simp only [Table.get_put, ite_true]
    · have hb := hi.bound i t k n a h
      -- an entry that is written again is written as it was
      refine ⟨hb.derived, hb.tool, hb.readable, List.mem_cons_of_mem _ hb.hashed, ?_, ?_, ?_, ?_⟩
      · simp only [Table.get_put]
        split
        · next hk =>
          subst hk
          rw [agreesWith_eq_true _ _ _ hcall hb.call]
        · exact hb.call
      · simp only [Table.get_put]
        split
        · next ht =>
          subst ht
          rw [agreesWith_eq_true _ _ _ huse hb.use]
        · exact hb.use
      · simp only [Table.get_put]
        split
        · next hk =>
          subst hk
          exact congrArg some
            (congrArg Fingerprint.toolUseId (agreesWith_eq_true _ _ _ hcall hb.call)).symm
        · exact hb.back
      · simp only [Table.get_put]
        split
        · next hm =>
          rw [← hm] at hmcp
          rw [agreesWith_eq_true _ _ _ hmcp hb.mcp]
        · exact hb.mcp
  · have hlog : ∀ x ∈ w.log, x ∈ Event.registered ident toolUseId (callKey cfg ident toolUseId) name
        arguments :: w.log := fun x hx => List.mem_cons_of_mem _ hx
    refine ⟨fun t k hg => ?_, fun k t hg => ?_, fun m k hg => ?_, fun k f hg => ?_⟩
    · simp only [Table.get_put] at hg
      split at hg
      · next ht =>
        cases hg
        exact ⟨ident, name, arguments, by rw [ht]; exact List.mem_cons_self⟩
      · obtain ⟨i, n, a, h⟩ := hi.entries.use t k hg
        exact ⟨i, n, a, hlog _ h⟩
    · simp only [Table.get_put] at hg
      split at hg
      · next hk =>
        cases hg
        exact ⟨ident, name, arguments, by rw [hk]; exact List.mem_cons_self⟩
      · obtain ⟨i, n, a, h⟩ := hi.entries.back k t hg
        exact ⟨i, n, a, hlog _ h⟩
    · simp only [Table.get_put] at hg
      split at hg
      · next hm =>
        cases hg
        exact ⟨ident, toolUseId, name, arguments, hm, List.mem_cons_self⟩
      · obtain ⟨i, t, n, a, hm, h⟩ := hi.entries.mcp m k hg
        exact ⟨i, t, n, a, hm, hlog _ h⟩
    · simp only [Table.get_put] at hg
      split at hg
      · next hk =>
        cases hg
        exact ⟨ident, toolUseId, name, arguments, rfl, by rw [hk]; exact List.mem_cons_self⟩
      · obtain ⟨i, t, n, a, hf, h⟩ := hi.entries.call k f hg
        exact ⟨i, t, n, a, hf, hlog _ h⟩

theorem inv_called (w : ClaudeWorld) (hi : ClaudeInv cfg w) (ident : Json) (toolUseId : Str)
    (call : ProviderToolCall) (hl : w.state.toolsListSeen = true)
    (hr : .registered ident toolUseId call.callKey call.name call.arguments ∈ w.log) :
    ClaudeInv cfg ⟨w.state, .called ident toolUseId call :: w.log⟩ := by
  obtain ⟨hbound, hentries⟩ := hi.push w w.state (.called ident toolUseId call) rfl rfl rfl rfl
    (fun _ _ _ _ _ h => by cases h)
  refine ⟨hi.requests, hi.fresh, hi.handshakes, hi.listed, hi.notified, ⟨⟨?_, hr⟩, hi.called⟩, hbound,
    hentries⟩
  have hn := hi.listed hl
  rw [hi.handshakes, ClaudeState.handshakes, hl, hn, hi.notified hn]
  rfl

theorem inv_mcp (w : ClaudeWorld) (hi : ClaudeInv cfg w) (st : ClaudeState) (events : List Event)
    (h : McpMoves cfg w.state st events) : ClaudeInv cfg ⟨st, events ++ w.log⟩ := by
  cases h with
  | refused => exact hi
  | conflict text => exact inv_hashed w hi text
  | initializeRequest h =>
    have hn : w.state.initializationNotificationSeen = false :=
      Bool.eq_false_iff.mpr fun hn => by rw [hi.notified hn] at h; cases h
    have hl : w.state.toolsListSeen = false :=
      Bool.eq_false_iff.mpr fun hl => by rw [hi.listed hl] at hn; cases hn
    refine inv_handshake w hi _ .initializeRequest rfl rfl rfl rfl rfl ?_ hi.listed fun _ => rfl
    simp only [ClaudeState.handshakes, h, hn, hl]
    rfl
  | initialized h hn =>
    have hl : w.state.toolsListSeen = false :=
      Bool.eq_false_iff.mpr fun hl => by rw [hi.listed hl] at hn; cases hn
    refine inv_handshake w hi _ .initialized rfl rfl rfl rfl rfl ?_ (fun _ => rfl) fun _ => h
    simp only [ClaudeState.handshakes, h, hn, hl]
    rfl
  | toolsList h hn =>
    refine inv_handshake w hi _ .toolsList rfl rfl rfl rfl rfl ?_ (fun _ => h) hi.notified
    simp only [ClaudeState.handshakes, h, hn]
    rfl
  | registered ident toolUseId name arguments st events hl hname hread hr he =>
    have hreg := inv_registered _ (inv_hashed w hi (keyText ident toolUseId)) ident toolUseId name
      arguments st hname hread List.mem_cons_self hr
    have hlisted : st.toolsListSeen = true := by
      simp only [register, bind_eq_ok] at hr
      obtain ⟨_, -, _, -, _, -, _, -, hr⟩ := hr
      cases hr
      exact hl
    obtain rfl | ⟨call, rfl, hkey, hcname, hargs⟩ := he
    · exact hreg
    · refine inv_called _ hreg ident toolUseId call hlisted ?_
      rw [hkey, hcname, hargs]
      exact List.mem_cons_self

theorem inv_line (w : ClaudeWorld) (line : Line) (hi : ClaudeInv cfg w) :
    ClaudeInv cfg (w.step cfg line) := by
  have h := @receive_moves cfg line.handler w.state line.text
  show ClaudeInv cfg ⟨(receive cfg line.handler w.state line.text).state,
    (receive cfg line.handler w.state line.text).events ++ w.log⟩
  generalize (receive cfg line.handler w.state line.text).state = st at h ⊢
  generalize (receive cfg line.handler w.state line.text).events = events at h ⊢
  cases h with
  | quiet => exact hi
  | terminal frame =>
    exact ⟨hi.requests, hi.fresh, hi.handshakes, hi.listed, hi.notified, hi.called,
      fun i t k n a h => (hi.bound i t k n a h).weaken (fun _ h => h) rfl rfl rfl rfl,
      hi.entries.weaken (fun _ h => h) rfl rfl rfl rfl⟩
  | control requestId request st events hnew h =>
    have hreq := inv_mcp _ (inv_request w hi requestId request hnew) st events h
    rwa [List.append_assoc]

end invariant

/-- No two of the texts hashed so far share a digest. -/
def NoCollision (cfg : ClaudeConfig) (log : List Event) : Prop :=
  ∀ a b, .hashed a ∈ log → .hashed b ∈ log → cfg.sha256 a = cfg.sha256 b → a = b

structure ClaudeLaw (cfg : ClaudeConfig) (w : ClaudeWorld) : Prop where
  handshake : ∀ later ident toolUseId call earlier,
    w.log = later ++ .called ident toolUseId call :: earlier →
      earlier.filterMap Event.handshakeStep = [.toolsList, .initialized, .initializeRequest]
  tool : ∀ ident toolUseId call, .called ident toolUseId call ∈ w.log → call.name ∈ cfg.tools
  registered : ∀ ident toolUseId call, .called ident toolUseId call ∈ w.log →
    .registered ident toolUseId call.callKey call.name call.arguments ∈ w.log
  oneToOne : NoCollision cfg w.log → ∀ i t k n a i' t' k' n' a',
    .registered i t k n a ∈ w.log → .registered i' t' k' n' a' ∈ w.log →
      (i = i' ↔ k = k') ∧ (t = t' ↔ k = k')
  inverse : ∀ t k, w.state.toolUseIds.get t = some k ↔ w.state.callToolUseIds.get k = some t
  mcpIds : NoCollision cfg w.log → ∀ m m' k, w.state.mcpIds.get m = some k →
    w.state.mcpIds.get m' = some k → m = m'
  sameCall : ∀ i t call i' t' call', .called i t call ∈ w.log → .called i' t' call' ∈ w.log →
    call.callKey = call'.callKey →
      call.name = call'.name ∧ Json.Same (.obj call.arguments) (.obj call'.arguments)
  requests : (w.log.filterMap Event.requestId).Nodup
  mcpCall : ∀ i t k n a t' k' n' a', .registered i t k n a ∈ w.log →
    .registered i t' k' n' a' ∈ w.log →
      t = t' ∧ n = n' ∧ Json.Same (.obj a) (.obj a')

section law
variable {cfg : ClaudeConfig}

theorem callsAfter_split (later earlier : List Event) (ident : Json) (toolUseId : Str)
    (call : ProviderToolCall) (h : CallsAfter (later ++ .called ident toolUseId call :: earlier)) :
    earlier.filterMap Event.handshakeStep = [.toolsList, .initialized, .initializeRequest] ∧
      .registered ident toolUseId call.callKey call.name call.arguments ∈ earlier := by
  induction later with
  | nil => exact h.1
  | cons e later ih => exact ih h.2

theorem called_registered (w : ClaudeWorld) (hi : ClaudeInv cfg w) (ident : Json) (toolUseId : Str)
    (call : ProviderToolCall) (h : .called ident toolUseId call ∈ w.log) :
    .registered ident toolUseId call.callKey call.name call.arguments ∈ w.log := by
  obtain ⟨later, earlier, hlog⟩ := List.append_of_mem h
  have hcalled := hi.called
  rw [hlog] at hcalled ⊢
  exact List.mem_append_right _
    (List.mem_cons_of_mem _ (callsAfter_split later earlier ident toolUseId call hcalled).2)

/- One key, one fingerprint. -/
theorem bound_key {st : ClaudeState} {log log' : List Event} {i i' : Json} {t t' k n n' : Str}
    {a a' : Members} (h : Bound cfg st log i t k n a) (h' : Bound cfg st log' i' t' k n' a') :
    t = t' ∧ n = n' ∧ Json.Same (.obj a) (.obj a') := by
  have hf : fingerprint n a t = fingerprint n' a' t' := by
    have := h.call
    rw [h'.call] at this
    exact (Option.some.inj this).symm
  refine ⟨congrArg Fingerprint.toolUseId hf, congrArg Fingerprint.name hf, ?_⟩
  rw [← Json.render_sortKeys_inj true _ _ h.readable.2 h'.readable.2]
  exact congrArg Fingerprint.arguments hf

theorem mcpId_injective (i i' : Json) (h : Json.All (Json.Readable true) i)
    (h' : Json.All (Json.Readable true) i') (he : mcpId i = mcpId i') : i = i' := by
  have hback := Json.loads_render true i h
  have hback' := Json.loads_render true i' h'
  unfold mcpId at he
  rw [he, hback'] at hback
  exact (Option.some.inj hback).symm

/- Two registrations share all three identities or none. -/
theorem bound_oneToOne (st : ClaudeState) (log : List Event) (hc : NoCollision cfg log)
    {i i' : Json} {t t' k k' n n' : Str} {a a' : Members} (h : Bound cfg st log i t k n a)
    (h' : Bound cfg st log i' t' k' n' a') : (i = i' ↔ k = k') ∧ (t = t' ↔ k = k') := by
  have huse : t = t' → k = k' := by
    intro ht
    have := h.use
    rw [ht, h'.use] at this
    exact (Option.some.inj this).symm
  have hmcp : i = i' → k = k' := by
    intro hii
    have := h.mcp
    rw [hii, h'.mcp] at this
    exact (Option.some.inj this).symm
  have hback : k = k' → i = i' ∧ t = t' := by
    intro hk
    subst hk
    have ht := (bound_key h h').1
    have htext : keyText i t = keyText i' t' :=
      hc _ _ h.hashed h'.hashed (h.derived.symm.trans h'.derived)
    rw [ht] at htext
    exact ⟨mcpId_injective i i' h.readable.1 h'.readable.1 (List.append_cancel_right htext), ht⟩
  exact ⟨⟨hmcp, fun hk => (hback hk).1⟩, huse, fun hk => (hback hk).2⟩

theorem law_of_claudeInv (w : ClaudeWorld) (hi : ClaudeInv cfg w) : ClaudeLaw cfg w where
  handshake later ident toolUseId call earlier h :=
    (callsAfter_split later earlier ident toolUseId call (h ▸ hi.called)).1
  tool ident toolUseId call h :=
    (hi.bound _ _ _ _ _ (called_registered w hi ident toolUseId call h)).tool
  registered ident toolUseId call h := called_registered w hi ident toolUseId call h
  oneToOne hc i t k n a i' t' k' n' a' h h' :=
    bound_oneToOne w.state w.log hc (hi.bound i t k n a h) (hi.bound i' t' k' n' a' h')
  inverse t k := by
    constructor
    · intro h
      obtain ⟨i, n, a, hr⟩ := hi.entries.use t k h
      exact (hi.bound i t k n a hr).back
    · intro h
      obtain ⟨i, n, a, hr⟩ := hi.entries.back k t h
      exact (hi.bound i t k n a hr).use
  mcpIds hc m m' k h h' := by
    obtain ⟨i, t, n, a, rfl, hr⟩ := hi.entries.mcp m k h
    obtain ⟨i', t', n', a', rfl, hr'⟩ := hi.entries.mcp m' k h'
    have hone := bound_oneToOne w.state w.log hc (hi.bound i t k n a hr) (hi.bound i' t' k n' a' hr')
    rw [hone.1.mpr rfl]
  sameCall i t call i' t' call' h h' hk := by
    have hb := hi.bound _ _ _ _ _ (called_registered w hi i t call h)
    have hb' := hi.bound _ _ _ _ _ (called_registered w hi i' t' call' h')
    rw [← hk] at hb'
    exact (bound_key hb hb').2
  requests := by
    rw [hi.requests]
    exact hi.fresh
  mcpCall i t k n a t' k' n' a' h h' := by
    have hb := hi.bound i t k n a h
    have hb' := hi.bound i t' k' n' a' h'
    have hk : k = k' := by
      have hmcp := hb.mcp
      rw [hb'.mcp] at hmcp
      exact (Option.some.inj hmcp).symm
    rw [← hk] at hb'
    exact bound_key hb hb'

end law

/-! ## After the result -/

/-- The line carries a result frame and is accepted. -/
def AcceptsResult (cfg : ClaudeConfig) (w : ClaudeWorld) (line : Line) : Prop :=
  ∃ frame reply, parseJson cfg.readFloat line.text = .ok frame ∧
    isText (member frame "type") "result" = true ∧
    (receive cfg line.handler w.state line.text).result = .ok reply

section result
variable {cfg : ClaudeConfig}

theorem isText_eq_true (v : Option Json) (text : String) (h : isText v text = true) :
    v = some (.str (codes text)) := by
  unfold isText at h
  split at h
  · rw [of_decide_eq_true h]
  · cases h

theorem receive_terminal (st : ClaudeState) (handler : ProviderToolCall → HandlerResult)
    (line : Str) (h : st.terminal.isSome = true) :
    receive cfg handler st line = Turn.fail st "Claude attempt is already terminal" [] := by
  unfold receive
  rw [if_pos h]

/-- An accepted result is recorded. -/
theorem acceptsResult_terminal (w : ClaudeWorld) (line : Line) (h : AcceptsResult cfg w line) :
    (w.step cfg line).state.terminal.isSome = true := by
  obtain ⟨frame, reply, hframe, hkind, hreply⟩ := h
  show (receive cfg line.handler w.state line.text).state.terminal.isSome = true
  have hnot : isText (member frame "type") "control_request" = false := by
    rw [isText_eq_true _ _ hkind]
    decide
  unfold receive at hreply ⊢
  split at hreply
  · cases hreply
  · next hopen =>
    rw [if_neg hopen]
    split at hreply
    · cases hreply
    · split at hreply
      · cases hreply
      · next hsize =>
        rw [if_neg hsize]
        rw [hframe] at hreply ⊢
        simp only [receiveFrame, hnot, hkind] at hreply ⊢
        cases hterminal : terminal cfg frame with
        | error e => simp [hterminal] at hreply
        | ok _ => simp

theorem step_terminal (w : ClaudeWorld) (line : Line)
    (h : w.state.terminal.isSome = true) : (w.step cfg line).state.terminal.isSome = true := by
  have hkept : (w.step cfg line).state = w.state := by
    show (receive cfg line.handler w.state line.text).state = w.state
    rw [receive_terminal w.state line.handler line.text h]
    rfl
  rw [hkept]
  exact h

/-- Once a result was accepted, every later line is refused and changes nothing. -/
theorem refused_after_result (before after : List Line) (line next : Line)
    (h : AcceptsResult cfg (run (ClaudeWorld.step cfg) ClaudeWorld.init before) line) :
    let w := run (ClaudeWorld.step cfg) ClaudeWorld.init (before ++ line :: after)
    receive cfg next.handler w.state next.text =
      Turn.fail w.state "Claude attempt is already terminal" [] := by
  intro w
  apply receive_terminal
  have hw : w = run (ClaudeWorld.step cfg)
      ((run (ClaudeWorld.step cfg) ClaudeWorld.init before).step cfg line) after := by
    show run _ _ (before ++ line :: after) = _
    unfold run
    rw [List.foldl_append, List.foldl_cons]
  rw [hw]
  exact run_invariant _ (fun w : ClaudeWorld => w.state.terminal.isSome = true) step_terminal _ after
    (acceptsResult_terminal _ line h)

end result

/-- Over every sequence of lines, whatever the tool handler answers. -/
theorem claude_call_identity (cfg : ClaudeConfig) (lines : List Line) :
    ClaudeLaw cfg (run (ClaudeWorld.step cfg) ClaudeWorld.init lines) ∧
    ∀ before line after (next : Line), lines = before ++ line :: after →
      AcceptsResult cfg (run (ClaudeWorld.step cfg) ClaudeWorld.init before) line →
        let w := run (ClaudeWorld.step cfg) ClaudeWorld.init lines
        receive cfg next.handler w.state next.text =
          Turn.fail w.state "Claude attempt is already terminal" [] := by
  refine ⟨law_of_claudeInv _ (run_invariant _ (ClaudeInv cfg) inv_line _ lines claudeInv_init), ?_⟩
  intro before line after next hlines h
  rw [hlines]
  exact refused_after_result before after line next h

/-! ## The MCP ids outside tool calls -/

def smallClaude : ClaudeConfig :=
  ⟨codes "thread", codes "turn", [codes "submit"], fun _ => .obj [], id, some⟩

/-- A control request with an MCP message, whose handler would raise. -/
def mcpLine (requestId message : String) : Line :=
  ⟨codes ("\x7b\"type\":\"control_request\",\"request_id\":\"" ++ requestId ++
      "\",\"request\":\x7b\"subtype\":\"mcp_message\",\"server_name\":\"forge\",\"message\":" ++
      message ++ "\x7d\x7d"), fun _ => .raised⟩

def initializeLine : Line :=
  mcpLine "r1" "\x7b\"jsonrpc\":\"2.0\",\"id\":1,\"method\":\"initialize\",\"params\":\x7b\"protocolVersion\":\"v\"\x7d\x7d"

def initializedLine : Line :=
  mcpLine "r2" "\x7b\"jsonrpc\":\"2.0\",\"method\":\"notifications/initialized\"\x7d"

def toolsListLine : Line :=
  mcpLine "r3" "\x7b\"jsonrpc\":\"2.0\",\"id\":1,\"method\":\"tools/list\"\x7d"

/-- The text of the reply to the line. -/
def replyText (w : ClaudeWorld) (line : Line) : Option Str :=
  match (receive smallClaude line.handler w.state line.text).result with
  | .ok (some reply) => some (Json.render true reply)
  | _ => none

/-- `initialize` and `tools/list` are both answered under the MCP id 1. -/
theorem claude_call_identity_reused :
    replyText ClaudeWorld.init initializeLine =
      some (Json.render true (controlResponse (codes "r1")
        (mcpResult (.int 1) (initializeResult (codes "v"))))) ∧
    replyText (run (ClaudeWorld.step smallClaude) ClaudeWorld.init [initializeLine, initializedLine])
        toolsListLine =
      some (Json.render true (controlResponse (codes "r3")
        (mcpResult (.int 1) [field "tools" (toolDescriptions smallClaude)]))) := by
  decide +kernel

end ParallelForge.Agents
