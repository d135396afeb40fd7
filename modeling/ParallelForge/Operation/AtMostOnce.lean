import ParallelForge.Operation.Rights

/-!
# One external effect for one key

For each key the rights still held, by tickets and by processes, and the
invocations already made are together at most one, and none before the key is
in the store. Every interleaving of calls, renewals, crashes and settlements
keeps this.
-/

namespace ParallelForge.Operation
open Base

variable {red : Durability}

/-- Rights and invocations of one key. -/
def World.rights (w : World red) (k : String) : ℕ :=
  w.tickets.countP (fun t => t.isNew && t.row.idempotencyKey == k) +
    w.procs.countP (fun p => p.pc.fresh k) + w.log.countP (fun e => isInvoke k e.2)

def Called (w : World red) (i : ℕ) : Prop := ∃ c, (i, c) ∈ w.log

structure WorldInv (w : World red) : Prop where
  store : StoreInv red w.store
  rights : ∀ k, w.rights k ≤ keyBound w.store k
  tickets : ∀ t ∈ w.tickets, (t.isNew = true → Backed w.store t) ∧ Stored w.store t
  procs : ∀ i p, w.procs[i]? = some p → p.pc.Backed w.store ∧ Answered w.store (Called w i) p.pc

theorem pc_backed_extends (store store' : Store) (h : Extends store store') (pc : Pc red)
    (hb : pc.Backed store) : pc.Backed store' := by
  cases pc with
  | executeAdmitted intent => exact fun hn => backed_extends store store' h intent (hb hn)
  | invokeAdmitted intent => exact fun hn => backed_extends store store' h intent (hb hn)
  | renewAdmitted intent owner => exact backed_extends store store' h intent hb
  | execute | invoke | invoking | observe | claimObserved | reconcile | claimReconcile | query
  | querying | storeOutcome | markUnknown | returned | returnedIntent | raised => trivial

theorem worldInv_init : WorldInv (World.init red) := by
  refine ⟨storeInv_empty, ?_, ?_, ?_⟩
  · intro k; simp [World.init, World.rights]
  · intro t ht; simp [World.init] at ht
  · intro i p hp; simp [World.init] at hp

/- A change of the store alone. -/
theorem worldInv_store (w : World red) (h : WorldInv w) (store' : Store)
    (hs : StoreInv red store') (he : Extends w.store store') :
    WorldInv { w with store := store' } := by
  refine ⟨hs, ?_, ?_, ?_⟩
  · intro k
    exact Nat.le_trans (h.rights k) (keyBound_extends _ _ he k)
  · intro t ht
    obtain ⟨hb, hst⟩ := h.tickets t ht
    exact ⟨fun hn => backed_extends _ _ he t (hb hn), stored_extends _ _ he t hst⟩
  · intro i p hp
    obtain ⟨hb, ha⟩ := h.procs i p hp
    exact ⟨pc_backed_extends _ _ he p.pc hb, answered_extends _ _ he _ _ (fun c => c) p.pc ha⟩

/- A new process that brings no right of its own. -/
theorem worldInv_start (w : World red) (h : WorldInv w) (p : Proc red)
    (hf : ∀ k, p.pc.fresh k = false) (hb : p.pc.Backed w.store)
    (ha : ∀ c, Answered w.store c p.pc) : WorldInv { w with procs := w.procs ++ [p] } := by
  refine ⟨h.store, ?_, h.tickets, ?_⟩
  · intro k
    have := h.rights k
    simp only [World.rights, List.countP_append, List.countP_singleton, hf k] at this ⊢
    simpa using this
  · intro i q hq
    by_cases hi : i < w.procs.length
    · rw [List.getElem?_append_left hi] at hq
      exact h.procs i q hq
    · rw [List.getElem?_append_right (Nat.le_of_not_lt hi), List.getElem?_singleton] at hq
      split at hq
      · cases hq
        exact ⟨hb, ha _⟩
      · cases hq

/- A ticket moves into a new process. -/
theorem worldInv_consume (w : World red) (h : WorldInv w) (lease : ℤ) (n : ℕ)
    (start : OperationIntent red → Pc red)
    (hf : ∀ t k, (start t).fresh k = (t.isNew && t.row.idempotencyKey == k))
    (hb : ∀ t, (t.isNew = true → Backed w.store t) → (start t).Backed w.store)
    (ha : ∀ t c, Stored w.store t → Answered w.store c (start t)) :
    WorldInv (w.consume red lease n start) := by
  unfold World.consume
  cases ht : w.tickets[n]? with
  | none => exact h
  | some t =>
    have hmem : t ∈ w.tickets := List.mem_of_getElem? ht
    obtain ⟨htb, hts⟩ := h.tickets t hmem
    refine ⟨h.store, ?_, ?_, ?_⟩
    · intro k
      have hr := h.rights k
      have hc := countP_eraseIdx_getElem? (fun t => t.isNew && t.row.idempotencyKey == k)
        w.tickets n t ht
      simp only [World.rights, List.countP_append, List.countP_singleton, hf t k] at hr hc ⊢
      omega
    · intro t' ht'
      exact h.tickets t' (List.mem_of_mem_eraseIdx ht')
    · intro i q hq
      by_cases hi : i < w.procs.length
      · rw [List.getElem?_append_left hi] at hq
        exact h.procs i q hq
      · rw [List.getElem?_append_right (Nat.le_of_not_lt hi), List.getElem?_singleton] at hq
        split at hq
        · cases hq
          exact ⟨hb t htb, ha t _ hts⟩
        · cases hq

/- One process moves: it keeps what it may answer, and its rights and new calls
are covered by the growth of the store. -/
theorem worldInv_move (w : World red) (h : WorldInv w) (i : ℕ) (p : Proc red) (store' : Store)
    (pc' : Pc red) (call : Option AdapterCall) (hp : w.procs[i]? = some p)
    (hs : StoreInv red store') (he : Extends w.store store')
    (hr : ∀ k, freshCount k pc' + invokeCount k call + keyBound w.store k
      ≤ freshCount k p.pc + keyBound store' k)
    (hb : pc'.Backed store')
    (ha : Answered store' (Called w i ∨ call ≠ none) pc') :
    WorldInv { w with
      store := store'
      procs := w.procs.set i ⟨p.lease, pc'⟩
      log := w.log ++ (call.toList.map fun c => (i, c)) } := by
  have hcalled : ∀ j, Called w j →
      ∃ c, (j, c) ∈ w.log ++ (call.toList.map fun c => (i, c)) := by
    rintro j ⟨c, hc⟩
    exact ⟨c, List.mem_append_left _ hc⟩
  refine ⟨hs, ?_, ?_, ?_⟩
  · intro k
    have hk := hr k
    have h0 := h.rights k
    have hc := countP_set_getElem? (fun p : Proc red => p.pc.fresh k) w.procs i ⟨p.lease, pc'⟩ p hp
    have hl : (call.toList.map fun c => (i, c)).countP (fun e => isInvoke k e.2)
        = invokeCount k call := by
      cases call with
      | none => rfl
      | some c => simp [invokeCount, List.countP_singleton]
    simp only [World.rights, List.countP_append, hl, freshCount] at hk h0 hc ⊢
    omega
  · intro t ht
    obtain ⟨htb, hst⟩ := h.tickets t ht
    exact ⟨fun hn => backed_extends _ _ he t (htb hn), stored_extends _ _ he t hst⟩
  · intro j q hq
    by_cases hij : j = i
    · subst hij
      rw [List.getElem?_set_self (List.getElem?_eq_some_iff.mp hp).1] at hq
      cases hq
      refine ⟨hb, answered_extends _ _ (extends_refl _) _ _ ?_ pc' ha⟩
      rintro (hc | hc)
      · exact hcalled j hc
      · obtain ⟨c, rfl⟩ := Option.ne_none_iff_exists'.mp hc
        exact ⟨c, List.mem_append_right _ (by simp)⟩
    · rw [List.getElem?_set_ne (Ne.symm hij)] at hq
      obtain ⟨hqb, hqa⟩ := h.procs j q hq
      exact ⟨pc_backed_extends _ _ he q.pc hqb,
        answered_extends _ _ he _ _ (hcalled j) q.pc hqa⟩

/- The background renewal: one renewal of the store, and no other difference to
the process than that it may stop. -/
theorem renewStep_cases (lease : ℤ) (store : Store) (pc : Pc red) (now : ℤ) :
    ((renewStep red lease store pc now).1 = store ∨
      ∃ op, (renewStep red lease store pc now).1 = storeStep red store op) ∧
    ((renewStep red lease store pc now).2 = pc ∨
      (∀ k, (renewStep red lease store pc now).2.fresh k = false) ∧
        (∀ s, (renewStep red lease store pc now).2.Backed s) ∧
        ∀ s c, Answered s c (renewStep red lease store pc now).2 ↔ Answered s c pc) := by
  unfold renewStep
  split
  · split
    · next store' intent hr =>
      exact ⟨Or.inr ⟨_, (storeStep_of_call store store' (.renew _ _ _ _) intent hr).symm⟩, Or.inl rfl⟩
    · exact ⟨Or.inl rfl, Or.inr ⟨fun _ => rfl, fun _ => trivial, fun _ _ => Iff.rfl⟩⟩
  · split
    · next store' intent hr =>
      exact ⟨Or.inr ⟨_, (storeStep_of_call store store' (.renew _ _ _ _) intent hr).symm⟩, Or.inl rfl⟩
    · exact ⟨Or.inl rfl, Or.inr ⟨fun _ => rfl, fun _ => trivial, fun _ _ => Iff.rfl⟩⟩
  · exact ⟨Or.inl rfl, Or.inl rfl⟩

/-- Every step of the system keeps the invariant. -/
theorem worldInv_step (w : World red) (a : Action red) (h : WorldInv w) : WorldInv (w.step red a) := by
  cases a with
  | begin args freshId runLoads now =>
    simp only [World.step]
    cases hb : beginIntent red w.store args freshId runLoads now with
    | error e => exact h
    | ok p =>
      obtain ⟨store', intent⟩ := p
      have hop := storeStep_of_call w.store store' (.begin args freshId runLoads now) intent hb
      have hs : StoreInv red store' := hop ▸ storeStep_inv w.store _ h.store
      have he : Extends w.store store' := hop ▸ storeStep_extends w.store _ h.store
      have hstored := beginIntent_stored _ _ _ _ _ _ _ h.store hb
      have hw := worldInv_store w h store' hs he
      refine ⟨hs, ?_, ?_, hw.procs⟩
      · intro k
        have h0 := h.rights k
        have hgrow := keyBound_extends _ _ he k
        simp only [World.rights, List.countP_append, List.countP_singleton] at h0 ⊢
        rcases beginIntent_report _ _ _ _ _ _ _ hb with hn | ⟨hn, hold, hnew⟩
        · simp only [hn, Bool.false_and, Bool.false_eq_true, if_false]
          omega
        · by_cases hk : intent.row.idempotencyKey = k
          · subst hk
            have hnew' : hasKey store' intent.row.idempotencyKey = true :=
              (hasKey_iff _ _).mpr ⟨_, _, hnew, rfl⟩
            simp only [keyBound, hold, hnew', Bool.false_eq_true, if_false, if_true] at h0 ⊢
            simp only [hn, beq_self_eq_true, Bool.and_self, if_true]
            omega
          · simp only [beq_eq_false_iff_ne.mpr hk, Bool.and_false, Bool.false_eq_true, if_false]
            omega
      · intro t ht
        rcases List.mem_append.mp ht with ht | ht
        · exact hw.tickets t ht
        · rw [List.mem_singleton] at ht
          subst ht
          exact ⟨fun _ => ⟨t.row, hstored, rfl⟩, fun _ => hstored⟩
  | startExecute lease args owner =>
    exact worldInv_start w h _ (fun _ => rfl) trivial (fun _ => trivial)
  | startExecuteAdmitted lease n =>
    exact worldInv_consume w h lease n .executeAdmitted (fun _ _ => rfl) (fun _ hb => hb)
      (fun _ _ hs => hs)
  | startInvokeAdmitted lease n =>
    exact worldInv_consume w h lease n .invokeAdmitted (fun _ _ => rfl) (fun _ hb => hb)
      (fun _ _ _ => trivial)
  | startReconcile lease id owner =>
    exact worldInv_start w h _ (fun _ => rfl) trivial (fun _ => trivial)
  | advance i tick =>
    simp only [World.step]
    cases hp : w.procs[i]? with
    | none => exact h
    | some p =>
      obtain ⟨hpb, hpa⟩ := h.procs i p hp
      obtain ⟨hs, he⟩ := procStep_inv p.lease w.store p.pc tick h.store
      exact worldInv_move w h i p _ _ _ hp hs he
        (fun k => procStep_rights p.lease w.store p.pc tick k h.store hpb)
        (procStep_backed p.lease w.store p.pc tick hpb)
        (procStep_answered p.lease w.store p.pc tick (Called w i) h.store hpa)
  | renew i now =>
    simp only [World.step]
    cases hp : w.procs[i]? with
    | none => exact h
    | some p =>
      obtain ⟨hpb, hpa⟩ := h.procs i p hp
      obtain ⟨hstore, hpc⟩ := renewStep_cases p.lease w.store p.pc now
      have hse : StoreInv red (renewStep red p.lease w.store p.pc now).1 ∧
          Extends w.store (renewStep red p.lease w.store p.pc now).1 := by
        rcases hstore with hs | ⟨op, hs⟩
        · rw [hs]; exact ⟨h.store, extends_refl _⟩
        · rw [hs]; exact ⟨storeStep_inv _ op h.store, storeStep_extends _ op h.store⟩
      have hm := worldInv_move w h i p _ (renewStep red p.lease w.store p.pc now).2 none hp
        hse.1 hse.2
      simp only [Option.toList_none, List.map_nil, List.append_nil] at hm
      refine hm ?_ ?_ ?_
      · intro k
        have hgrow := keyBound_extends _ _ hse.2 k
        rcases hpc with hpc | ⟨hf, -⟩
        · rw [hpc]; simp only [invokeCount, Option.any_none, Bool.false_eq_true, if_false]; omega
        · simp only [freshCount, hf k, invokeCount, Option.any_none, Bool.false_eq_true, if_false]
          omega
      · rcases hpc with hpc | ⟨-, hb, -⟩
        · rw [hpc]; exact pc_backed_extends _ _ hse.2 p.pc hpb
        · exact hb _
      · have hext := answered_extends _ _ hse.2 _ (Called w i ∨ (none : Option AdapterCall) ≠ none)
          Or.inl p.pc hpa
        rcases hpc with hpc | ⟨-, -, ha⟩
        · rw [hpc]; exact hext
        · exact (ha _ _).mpr hext
  | crash i =>
    simp only [World.step]
    cases hp : w.procs[i]? with
    | none => exact h
    | some p =>
      by_cases hf : p.pc.finished = true
      · simp only [hf, if_true]; exact h
      · simp only [hf]
        have hm := worldInv_move w h i p w.store .raised none hp h.store (extends_refl _)
        simp only [Option.toList_none, List.map_nil, List.append_nil] at hm
        refine hm ?_ trivial trivial
        intro k
        simp [freshCount, invokeCount, Pc.fresh]
  | settle op =>
    exact worldInv_store w h _ (storeStep_inv _ op h.store) (storeStep_extends _ op h.store)

/-- In every interleaving the adapter is invoked at most once for each key. A
call that did not invoke has only queried the adapter, and an outcome or a
settled intent it returned without querying is the stored one. -/
theorem invoke_at_most_once (red : Durability) (actions : List (Action red)) :
    let w := run (World.step red) (World.init red) actions
    (∀ k, (w.log.filter fun e => e.2 == .invoke k).length ≤ 1) ∧
    ∀ i p, w.procs[i]? = some p → (∀ k, (i, AdapterCall.invoke k) ∉ w.log) →
      (∀ c, (i, c) ∈ w.log → ∃ k, c = .query k) ∧
      (∀ o, p.pc = .returned o → (∃ k, (i, AdapterCall.query k) ∈ w.log) ∨
        ∃ id r, w.store.get id = some r ∧ r.status = .succeeded ∧ toOutcome red r = some o) ∧
      (∀ intent, p.pc = .returnedIntent intent → (∃ k, (i, AdapterCall.query k) ∈ w.log) ∨
        (intent.row.status.terminal = true → w.store.get intent.row.id = some intent.row)) := by
  intro w
  have hinv : WorldInv w := run_invariant _ _ worldInv_step _ _ worldInv_init
  refine ⟨?_, ?_⟩
  · intro k
    have hr := hinv.rights k
    have hb : keyBound w.store k ≤ 1 := by unfold keyBound; split <;> omega
    have hc : w.log.countP (fun e => isInvoke k e.2) ≤ 1 := by
      unfold World.rights at hr
      omega
    rw [← List.countP_eq_length_filter]
    exact hc
  · intro i p hp hno
    have hquery : ∀ c, (i, c) ∈ w.log → ∃ k, c = .query k := by
      intro c hc
      cases c with
      | invoke k => exact absurd hc (hno k)
      | query k => exact ⟨k, rfl⟩
    have hcalled : Called w i → ∃ k, (i, AdapterCall.query k) ∈ w.log := by
      rintro ⟨c, hc⟩
      obtain ⟨k, rfl⟩ := hquery c hc
      exact ⟨k, hc⟩
    have ha := (hinv.procs i p hp).2
    refine ⟨hquery, ?_, ?_⟩
    · intro o ho
      rw [ho] at ha
      exact ha.imp hcalled id
    · intro intent hi
      rw [hi] at ha
      exact ha.imp hcalled id

end ParallelForge.Operation
