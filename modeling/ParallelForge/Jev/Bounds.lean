import ParallelForge.Jev.Admission
import Mathlib.Algebra.GroupWithZero.Nat

/-!
# Admissions are bounded and made once

What one reservation can do is said once (`Reserves`); the rest only looks at
the part of a row that decides later calls. An admission is the only way to a
row with reserved units, a settlement the only way out of `pending`, and a
derived row never counts as an admission. So the replies that gave permission
and the rows with reserved units are the same thing.
-/

namespace ParallelForge.Jev
open Base

variable {Scores : Type} {sha256 : String → String}

/-- What a reservation that does not raise has done. -/
inductive Reserves [EmptyCollection Scores] (sha256 : String → String) (rows : Evaluations Scores) (c : Reserve) :
    Evaluations Scores → Option (JevResult Scores) → Prop
  | told (r : JevResult Scores) (h : r.status = .cached →
      ∃ d row, rows.get d = some row ∧ row.status = .cached) : Reserves sha256 rows c rows (some r)
  | replayed (existing source : JevEvaluation Scores) (r : JevResult Scores)
      (hget : rows.get (sha256 c.request.operationKey) = some existing)
      (hanswered : existing.status.answered = true) (hsource : sourceOf rows existing = some source)
      (hfresh : c.now < source.createdAt + c.ttl) (hr : r.answers = existing.scores.getD ∅) :
      Reserves sha256 rows c (rows.put (sha256 c.request.operationKey)
        { existing with cacheHits := existing.cacheHits + 1 }) (some r)
  | cached (source : String × JevEvaluation Scores) (r : JevResult Scores)
      (hget : rows.get (sha256 c.request.operationKey) = none)
      (hsource : rows.get source.1 = some source.2) (hunits : 0 < source.2.reservedInputUnits)
      (hanswered : source.2.status.answered = true)
      (hfresh : c.now < source.2.createdAt + c.ttl) (hr : r.answers = source.2.scores.getD ∅) :
      Reserves sha256 rows c (rows.put (sha256 c.request.operationKey) (cachedRow c source)) (some r)
  | refused (row : JevEvaluation Scores) (r : JevResult Scores)
      (hget : rows.get (sha256 c.request.operationKey) = none) (hr : r.status ≠ .cached)
      (hrow : row.status = .budgetExhausted ∧ row.reservedInputUnits = 0 ∧
        row.cacheSourceDigest = none) :
      Reserves sha256 rows c (rows.put (sha256 c.request.operationKey) row) (some r)
  | admitted (hget : rows.get (sha256 c.request.operationKey) = none)
      (hfree : uncertainMatch rows c = false) (hcalls : calls rows < c.maxRequests)
      (hunits : reservedUnits rows + c.inputUnits ≤ c.maxInputUnits) :
      Reserves sha256 rows c (rows.put (sha256 c.request.operationKey) (admittedRow c)) none

theorem mem_matchesOf (rows : Evaluations Scores) (requestDigest d : String)
    (row : JevEvaluation Scores) :
    (d, row) ∈ matchesOf rows requestDigest ↔ rows.get d = some row ∧
      row.requestDigest = requestDigest ∧ 0 < row.reservedInputUnits ∧
      (row.status.uncertain = true ∨ row.status.answered = true) := by
  have hperm : (matchesOf rows requestDigest).Perm _ := List.perm_insertionSort newestFirst _
  rw [hperm.mem_iff, Table.mem_select_iff]
  simp only [Bool.and_eq_true, beq_iff_eq, decide_eq_true_eq, Bool.or_eq_true, and_assoc]

theorem cacheSource_eq_some (rows : Evaluations Scores) (c : Reserve)
    (source : String × JevEvaluation Scores) (h : cacheSource rows c = some source) :
    rows.get source.1 = some source.2 ∧ 0 < source.2.reservedInputUnits ∧
      source.2.status.answered = true ∧ c.now < source.2.createdAt + c.ttl := by
  unfold cacheSource at h
  split at h
  · have hmem := (mem_matchesOf rows c.requestDigest source.1 source.2).mp (List.mem_of_find?_eq_some h)
    have htest := List.find?_some h
    simp only [Bool.and_eq_true, decide_eq_true_eq] at htest
    exact ⟨hmem.1, hmem.2.2.1, htest.1.1, htest.2⟩
  · cases h

theorem replayAnswer_reserves [EmptyCollection Scores] (rows : Evaluations Scores) (c : Reserve)
    (existing : JevEvaluation Scores)
    (hget : rows.get (sha256 c.request.operationKey) = some existing)
    (hanswered : existing.status.answered = true) :
    Reserves sha256 rows c (replayAnswer rows (sha256 c.request.operationKey) existing c).1
      (some (replayAnswer rows (sha256 c.request.operationKey) existing c).2) := by
  unfold replayAnswer
  cases hsource : sourceOf rows existing with
  | none => exact .told _ (fun h => by cases h)
  | some source =>
    by_cases hstale : c.policy.cacheTtlSeconds = 0 ∨ source.createdAt + c.ttl ≤ c.now
    · simp only [if_pos hstale]
      exact .told _ (fun h => by cases h)
    · simp only [if_neg hstale]
      have hfresh : c.now < source.createdAt + c.ttl := by
        have := (not_or.mp hstale).2
        omega
      exact .replayed existing source _ hget hanswered hsource hfresh rfl

theorem reserve_reserves [EmptyCollection Scores] (rows rows' : Evaluations Scores) (c : Reserve)
    (reply : Option (JevResult Scores)) (h : reserve sha256 rows c = .ok (rows', reply)) :
    Reserves sha256 rows c rows' reply := by
  unfold reserve at h
  rw [bind_eq_ok] at h
  obtain ⟨-, -, h⟩ := h
  rw [require_bind_eq_ok] at h
  obtain ⟨-, h⟩ := h
  cases hget : rows.get (sha256 c.request.operationKey) with
  | some existing =>
    simp only [hget, bind_eq_ok] at h
    obtain ⟨⟨mid, result⟩, hreplay, h⟩ := h
    cases h
    unfold replay at hreplay
    split at hreplay
    · cases hreplay
    · split at hreplay
      · cases hreplay
        exact .told _ (fun h => by cases h)
      · split at hreplay
        · next hans =>
          have hserved := @replayAnswer_reserves _ sha256 _ rows c existing hget hans
          rw [Except.ok.inj hreplay] at hserved
          exact hserved
        · cases hreplay
          exact .told _ (fun h => ⟨_, existing, hget, h⟩)
  | none =>
    simp only [hget, reserveNew] at h
    split at h
    · cases h
      exact .told _ (fun h => by cases h)
    · next hfree =>
      cases hsource : cacheSource rows c with
      | some source =>
        simp only [hsource] at h
        cases h
        obtain ⟨hrow, hunits, hans, hfresh⟩ := cacheSource_eq_some rows c source hsource
        exact .cached source _ hget hrow hunits hans hfresh rfl
      | none =>
        simp only [hsource] at h
        split at h
        · simp only [recordRefusal, hget, bind_eq_ok] at h
          obtain ⟨mid, hmid, h⟩ := h
          cases hmid
          cases h
          exact .refused _ _ hget (by simp [JevResult.plain]) ⟨rfl, rfl, rfl⟩
        · next hbudget =>
          cases h
          have hb := not_or.mp hbudget
          exact .admitted hget (by simpa using hfree) (by omega) (by omega)

/-! ### What later calls look at -/

structure Evidence (Scores : Type) where
  status : JevStatus
  reserved : ℕ
  source : Option String
  scores : Option Scores
  createdAt : ℤ

def JevEvaluation.evidence (row : JevEvaluation Scores) : Evidence Scores where
  status := row.status
  reserved := row.reservedInputUnits
  source := row.cacheSourceDigest
  scores := row.scores
  createdAt := row.createdAt

def look (rows : Evaluations Scores) (d : String) : Option (Evidence Scores) :=
  (rows.get d).map JevEvaluation.evidence

theorem look_eq_some (rows : Evaluations Scores) (d : String) (row : JevEvaluation Scores)
    (h : rows.get d = some row) : look rows d = some row.evidence := by
  rw [look, h]
  rfl

theorem look_put (rows : Evaluations Scores) (d : String) (row : JevEvaluation Scores) :
    look (rows.put d row) = Function.update (look rows) d (some row.evidence) := by
  funext i
  rw [look, Table.get_put, Function.update_apply]
  split
  · rfl
  · rfl

/- A row rewritten without a change of its evidence. -/
theorem look_put_same (rows : Evaluations Scores) (d : String) (row row' : JevEvaluation Scores)
    (h : rows.get d = some row) (he : row'.evidence = row.evidence) :
    look (rows.put d row') = look rows := by
  rw [look_put, he, ← look_eq_some rows d row h, Function.update_eq_self]

structure RowsInv (rows : String → Option (Evidence Scores))
    (settlements : List (String × JevResult Scores)) : Prop where
  status : ∀ d e, rows d = some e → e.status ≠ .cached
  uncertain : ∀ d e, rows d = some e → e.status.uncertain = true → 0 < e.reserved
  original : ∀ d e, rows d = some e → 0 < e.reserved → e.source = none
  answered : ∀ d e, rows d = some e → e.status.answered = true → 0 < e.reserved ∨ e.source ≠ none
  derived : ∀ d e src, rows d = some e → e.source = some src → ∃ e', rows src = some e' ∧
    0 < e'.reserved ∧ e'.status.answered = true ∧ e.scores = e'.scores
  scores : ∀ d e, rows d = some e → 0 < e.reserved → e.status.answered = true →
    ∃ response, (d, response) ∈ settlements ∧ e.scores = some response.answers

/-- What an inserted row may be: an admission in flight, a refusal, or derived from
an answered admission. -/
structure Insertable (rows : String → Option (Evidence Scores)) (e : Evidence Scores) : Prop where
  status : e.status ≠ .cached
  uncertain : e.status.uncertain = true → 0 < e.reserved
  pending : 0 < e.reserved → e.source = none ∧ e.status.answered = false
  answered : e.status.answered = true → e.source ≠ none
  derived : ∀ src, e.source = some src → ∃ e', rows src = some e' ∧ 0 < e'.reserved ∧
    e'.status.answered = true ∧ e.scores = e'.scores

theorem rowsInv_insert (rows : String → Option (Evidence Scores))
    (settlements : List (String × JevResult Scores)) (h : RowsInv rows settlements) (d : String)
    (e : Evidence Scores) (hd : rows d = none) (he : Insertable rows e) :
    RowsInv (Function.update rows d (some e)) settlements := by
  -- a source is another row, which the insertion leaves in place
  have hkeep : ∀ src e', rows src = some e' → Function.update rows d (some e) src = some e' := by
    intro src e' hsrc
    have hne : src ≠ d := by
      intro heq
      rw [heq, hd] at hsrc
      cases hsrc
    rw [Function.update_of_ne hne]
    exact hsrc
  have hcases : ∀ i e', Function.update rows d (some e) i = some e' →
      (i = d ∧ e' = e) ∨ rows i = some e' := by
    intro i e' hi
    rw [Function.update_apply] at hi
    split at hi
    · next heq => exact Or.inl ⟨heq, (Option.some.inj hi).symm⟩
    · exact Or.inr hi
  constructor
  case status =>
    intro i e' hi
    rcases hcases i e' hi with ⟨-, rfl⟩ | hold
    · exact he.status
    · exact h.status i e' hold
  case uncertain =>
    intro i e' hi hu
    rcases hcases i e' hi with ⟨-, rfl⟩ | hold
    · exact he.uncertain hu
    · exact h.uncertain i e' hold hu
  case original =>
    intro i e' hi hr
    rcases hcases i e' hi with ⟨-, rfl⟩ | hold
    · exact (he.pending hr).1
    · exact h.original i e' hold hr
  case answered =>
    intro i e' hi ha
    rcases hcases i e' hi with ⟨-, rfl⟩ | hold
    · exact Or.inr (he.answered ha)
    · exact h.answered i e' hold ha
  case derived =>
    intro i e' src hi hs
    have hold : ∃ f, rows src = some f ∧ 0 < f.reserved ∧ f.status.answered = true ∧
        e'.scores = f.scores := by
      rcases hcases i e' hi with ⟨-, rfl⟩ | hold
      · exact he.derived src hs
      · exact h.derived i e' src hold hs
    obtain ⟨f, hf, hrest⟩ := hold
    exact ⟨f, hkeep src f hf, hrest⟩
  case scores =>
    intro i e' hi hr ha
    rcases hcases i e' hi with ⟨-, rfl⟩ | hold
    · rw [(he.pending hr).2] at ha
      cases ha
    · exact h.scores i e' hold hr ha

/- A pending row is settled: it was an admission, and nothing was derived from it yet. -/
theorem rowsInv_settle (rows : String → Option (Evidence Scores))
    (settlements : List (String × JevResult Scores)) (h : RowsInv rows settlements) (d : String)
    (e e' : Evidence Scores) (response : JevResult Scores) (hd : rows d = some e)
    (hpending : e.status = .pending) (hstatus : e'.status = response.status)
    (hreserved : e.reserved ≤ e'.reserved) (hsource : e'.source = e.source)
    (hscores : e'.status.answered = true → e'.scores = some response.answers)
    (hvalid : response.status.answered = true ∨ response.status = .unavailable ∨
      response.status = .unknown) :
    RowsInv (Function.update rows d (some e')) ((d, response) :: settlements) := by
  have hpos : 0 < e.reserved := h.uncertain d e hd (by rw [hpending]; rfl)
  have hnone : e'.source = none := by
    rw [hsource]
    exact h.original d e hd hpos
  have hcases : ∀ i f, Function.update rows d (some e') i = some f →
      (i = d ∧ f = e') ∨ rows i = some f := by
    intro i f hi
    rw [Function.update_apply] at hi
    split at hi
    · next heq => exact Or.inl ⟨heq, (Option.some.inj hi).symm⟩
    · exact Or.inr hi
  constructor
  case status =>
    intro i f hi
    rcases hcases i f hi with ⟨-, rfl⟩ | hold
    · rw [hstatus]
      rcases hvalid with hv | hv | hv
      · intro hc
        rw [hc] at hv
        cases hv
      · rw [hv]; decide
      · rw [hv]; decide
    · exact h.status i f hold
  case uncertain =>
    intro i f hi hu
    rcases hcases i f hi with ⟨-, rfl⟩ | hold
    · omega
    · exact h.uncertain i f hold hu
  case original =>
    intro i f hi hr
    rcases hcases i f hi with ⟨-, rfl⟩ | hold
    · exact hnone
    · exact h.original i f hold hr
  case answered =>
    intro i f hi ha
    rcases hcases i f hi with ⟨-, rfl⟩ | hold
    · exact Or.inl (by omega)
    · exact h.answered i f hold ha
  case derived =>
    intro i f src hi hs
    rcases hcases i f hi with ⟨-, rfl⟩ | hold
    · rw [hnone] at hs
      cases hs
    · obtain ⟨g, hg, hgr, hga, hgs⟩ := h.derived i f src hold hs
      have hne : src ≠ d := by
        intro heq
        rw [heq, hd] at hg
        cases hg
        rw [hpending] at hga
        cases hga
      exact ⟨g, by rw [Function.update_of_ne hne]; exact hg, hgr, hga, hgs⟩
  case scores =>
    intro i f hi hr ha
    rcases hcases i f hi with ⟨rfl, rfl⟩ | hold
    · exact ⟨response, List.mem_cons_self, hscores ha⟩
    · obtain ⟨r, hr', hs⟩ := h.scores i f hold hr ha
      exact ⟨r, List.mem_cons_of_mem _ hr', hs⟩

/-! ### Counting the admissions -/

theorem calls_eq_total (rows : Evaluations Scores) :
    calls rows = rows.total fun _ row => if 0 < row.reservedInputUnits then 1 else 0 := by
  unfold calls admissions
  rw [Table.length_select]
  simp only [decide_eq_true_eq]

/- Rows without reserved units add nothing. -/
theorem reservedUnits_eq_total (rows : Evaluations Scores) :
    reservedUnits rows = rows.total fun _ row => row.reservedInputUnits := by
  unfold reservedUnits admissions Table.select Table.total
  induction rows.rows with
  | nil => rfl
  | cons r rest ih =>
    by_cases hr : 0 < r.2.reservedInputUnits
    · rw [List.filter_cons_of_pos (by simpa using hr)]
      simp only [List.map_cons, List.sum_cons, ih]
    · rw [List.filter_cons_of_neg (by simpa using hr)]
      simp only [List.map_cons, List.sum_cons, ih]
      omega

section totals
variable (w : String → JevEvaluation Scores → ℕ) (rows : Evaluations Scores) (d : String)
  (row : JevEvaluation Scores)

theorem total_insert (h : rows.get d = none) : (rows.put d row).total w = rows.total w + w d row := by
  rw [Table.total_put, Table.total_eq_off rows w d, h]
  simp only [Option.elim_none]
  omega

theorem total_replace (old : JevEvaluation Scores) (h : rows.get d = some old) :
    (rows.put d row).total w + w d old = rows.total w + w d row := by
  rw [Table.total_put, Table.total_of_some rows w d old h]
  omega

end totals

def isAdmission (r : Reserve × Except String (Option (JevResult Scores))) : Bool :=
  match r.2 with
  | .ok none => true
  | _ => false

def admittedAs (sha256 : String → String) (d : String)
    (r : Reserve × Except String (Option (JevResult Scores))) : Bool :=
  isAdmission r && sha256 r.1.request.operationKey == d

def Evidence.weight (e : Evidence Scores) : ℕ := if 0 < e.reserved then 1 else 0

/-- The answer came from the settlement of an admission that is within the time to live. -/
def Served (sha256 : String → String) (s : System Scores) (c : Reserve) (answers : Scores) : Prop :=
  ∃ admission response, (admission, .ok none) ∈ s.replies ∧
    (sha256 admission.request.operationKey, response) ∈ s.settlements ∧
    answers = response.answers ∧ c.now < admission.createdAt + c.ttl

structure Inv (sha256 : String → String) (s : System Scores) : Prop where
  rows : RowsInv (look s.rows) s.settlements
  once : ∀ d, s.replies.countP (admittedAs sha256 d) = (look s.rows d).elim 0 Evidence.weight
  counted : s.replies.countP isAdmission = calls s.rows
  stamped : ∀ d e, look s.rows d = some e → 0 < e.reserved → ∃ c, (c, .ok none) ∈ s.replies ∧
    sha256 c.request.operationKey = d ∧ c.createdAt = e.createdAt
  served : ∀ c r, (c, .ok (some r)) ∈ s.replies → r.status = .cached → Served sha256 s c r.answers

theorem Served.mono {s s' : System Scores} {c : Reserve} {answers : Scores}
    (h : Served sha256 s c answers) (hr : ∀ r ∈ s.replies, r ∈ s'.replies)
    (hs : ∀ r ∈ s.settlements, r ∈ s'.settlements) : Served sha256 s' c answers := by
  obtain ⟨admission, response, ha, hb, hrest⟩ := h
  exact ⟨admission, response, hr _ ha, hs _ hb, hrest⟩

/- An answered row is served from the admission it goes back to. -/
theorem served_of_source (s : System Scores) (h : Inv sha256 s) (c : Reserve) (d : String)
    (e : Evidence Scores) (hd : look s.rows d = some e) (hr : 0 < e.reserved)
    (ha : e.status.answered = true) (hfresh : c.now < e.createdAt + c.ttl) :
    ∃ answers, e.scores = some answers ∧ Served sha256 s c answers := by
  obtain ⟨response, hmem, hscores⟩ := h.rows.scores d e hd hr ha
  obtain ⟨admission, hadm, hkey, hstamp⟩ := h.stamped d e hd hr
  refine ⟨response.answers, hscores, admission, response, hadm, ?_, rfl, ?_⟩
  · rw [hkey]
    exact hmem
  · rw [hstamp]
    exact hfresh

theorem inv_init : Inv sha256 (System.init : System Scores) where
  rows := by constructor <;> intro d e <;> simp [System.init, look]
  once := fun d => by simp [System.init, look]
  counted := rfl
  stamped := fun d e h => by simp [System.init, look] at h
  served := fun c r h => by simp [System.init] at h

/- A reply that is no permission, with the evidence of every row as it was. -/
theorem inv_reply (s : System Scores) (h : Inv sha256 s) (rows : Evaluations Scores) (c : Reserve)
    (reply : Except String (Option (JevResult Scores))) (hlook : look rows = look s.rows)
    (hcalls : calls rows = calls s.rows) (hno : isAdmission (c, reply) = false)
    (hserved : ∀ r, reply = .ok (some r) → r.status = .cached → Served sha256 s c r.answers) :
    Inv sha256 { s with rows := rows, replies := (c, reply) :: s.replies } := by
  have hmem : ∀ r ∈ s.replies, r ∈ (c, reply) :: s.replies := fun r hr => List.mem_cons_of_mem _ hr
  constructor
  case rows =>
    show RowsInv (look rows) s.settlements
    rw [hlook]
    exact h.rows
  case once =>
    intro d
    have hnot : admittedAs sha256 d (c, reply) = false := by rw [admittedAs, hno, Bool.false_and]
    simp only [List.countP_cons, hnot, hlook]
    exact h.once d
  case counted =>
    simp only [List.countP_cons, hno, hcalls]
    exact h.counted
  case stamped =>
    intro d e hd hr
    rw [hlook] at hd
    obtain ⟨c', hc', hrest⟩ := h.stamped d e hd hr
    exact ⟨c', hmem _ hc', hrest⟩
  case served =>
    intro c' r hr hc
    rcases List.mem_cons.mp hr with heq | hold
    · cases heq
      exact (hserved r rfl hc).mono hmem fun _ hs => hs
    · exact (h.served c' r hold hc).mono hmem fun _ hs => hs

/- A reply together with a new row, which has reserved units exactly if the reply is
a permission. -/
theorem inv_insert (s : System Scores) (h : Inv sha256 s) (c : Reserve)
    (row : JevEvaluation Scores) (reply : Option (JevResult Scores))
    (hget : s.rows.get (sha256 c.request.operationKey) = none)
    (hrow : Insertable (look s.rows) row.evidence)
    (hunits : 0 < row.reservedInputUnits ↔ reply = none)
    (hstamp : reply = none → c.createdAt = row.createdAt)
    (hserved : ∀ r, reply = some r → r.status = .cached → Served sha256 s c r.answers) :
    Inv sha256 { s with
      rows := s.rows.put (sha256 c.request.operationKey) row
      replies := (c, .ok reply) :: s.replies } := by
  have hmem : ∀ r ∈ s.replies, r ∈ (c, .ok reply) :: s.replies :=
    fun r hr => List.mem_cons_of_mem _ hr
  have hlook : look s.rows (sha256 c.request.operationKey) = none := by rw [look, hget]; rfl
  have hadm : isAdmission (c, (.ok reply : Except String (Option (JevResult Scores)))) = true ↔
      0 < row.reservedInputUnits := by
    rw [hunits]
    cases reply with
    | none => simp [isAdmission]
    | some r => simp [isAdmission]
  constructor
  case rows =>
    show RowsInv (look (s.rows.put _ row)) s.settlements
    rw [look_put]
    exact rowsInv_insert _ _ h.rows _ _ hlook hrow
  case once =>
    intro d
    have hd := h.once d
    simp only [List.countP_cons, look_put, Function.update_apply]
    by_cases heq : d = sha256 c.request.operationKey
    · subst heq
      rw [hlook] at hd
      simp only [Option.elim_none] at hd
      simp only [hd, admittedAs, beq_self_eq_true, Bool.and_true, hadm, if_pos, Option.elim_some,
        Evidence.weight, JevEvaluation.evidence]
      omega
    · have hne : (sha256 c.request.operationKey == d) = false := by simpa using Ne.symm heq
      simp only [admittedAs, hne, Bool.and_false, if_neg heq, hd, Bool.false_eq_true, if_false]
      omega
  case counted =>
    simp only [List.countP_cons, h.counted, calls_eq_total, hadm]
    rw [total_insert _ _ _ _ hget]
  case stamped =>
    intro d e hd hr
    simp only [look_put, Function.update_apply] at hd
    split at hd
    · next heq =>
      cases hd
      have hnone : reply = none := hunits.mp hr
      subst hnone
      exact ⟨c, List.mem_cons_self, heq.symm, hstamp rfl⟩
    · obtain ⟨c', hc', hrest⟩ := h.stamped d e hd hr
      exact ⟨c', hmem _ hc', hrest⟩
  case served =>
    intro c' r hr hc
    rcases List.mem_cons.mp hr with heq | hold
    · cases heq
      exact (hserved r rfl hc).mono hmem fun _ hs => hs
    · exact (h.served c' r hold hc).mono hmem fun _ hs => hs

/- A change of the rows without a reply keeps what was counted if the rows with
reserved units stay the same. -/
theorem inv_rows (s : System Scores) (h : Inv sha256 s) (d : String) (row : JevEvaluation Scores)
    (settlements : List (String × JevResult Scores))
    (hrows : RowsInv (Function.update (look s.rows) d (some row.evidence)) settlements)
    (hsub : ∀ r ∈ s.settlements, r ∈ settlements)
    (hweight : row.evidence.weight = (look s.rows d).elim 0 Evidence.weight)
    (hstamp : ∀ e, look s.rows d = some e → row.createdAt = e.createdAt) :
    Inv sha256 { s with rows := s.rows.put d row, settlements := settlements } := by
  constructor
  case rows =>
    show RowsInv (look (s.rows.put d row)) settlements
    rw [look_put]
    exact hrows
  case once =>
    intro i
    simp only [h.once i, look_put, Function.update_apply]
    split
    · next heq =>
      subst heq
      rw [Option.elim_some, hweight]
    · rfl
  case counted =>
    simp only [h.counted, calls_eq_total]
    rw [Table.total_put, Table.total_eq_off s.rows _ d]
    congr 1
    have hw : row.evidence.weight = if 0 < row.reservedInputUnits then 1 else 0 := rfl
    rw [← hw, hweight, look]
    cases s.rows.get d with
    | none => rfl
    | some old => rfl
  case stamped =>
    intro i e hi hr
    simp only [look_put, Function.update_apply] at hi
    split at hi
    · next heq =>
      cases hi
      subst heq
      have hpos : (look s.rows i).elim 0 Evidence.weight = 1 := by
        rw [← hweight, Evidence.weight, if_pos hr]
      cases hold : look s.rows i with
      | none =>
        rw [hold] at hpos
        cases hpos
      | some e =>
        rw [hold] at hpos
        have hold' : 0 < e.reserved := by
          by_contra hz
          rw [Option.elim_some, Evidence.weight, if_neg hz] at hpos
          cases hpos
        obtain ⟨c, hc, hkey, htime⟩ := h.stamped i e hold hold'
        refine ⟨c, hc, hkey, ?_⟩
        rw [htime, ← hstamp e hold]
        rfl
    · exact h.stamped i e hi hr
  case served =>
    intro c r hr hc
    exact (h.served c r hr hc).mono (fun _ hs => hs) hsub

theorem insertable_refusal (rows : String → Option (Evidence Scores)) (row : JevEvaluation Scores)
    (hs : row.status = .unavailable ∨ row.status = .budgetExhausted)
    (hr : row.reservedInputUnits = 0) (hc : row.cacheSourceDigest = none) :
    Insertable rows row.evidence := by
  have hstatus : row.evidence.status = .unavailable ∨ row.evidence.status = .budgetExhausted := hs
  have hzero : row.evidence.reserved = 0 := hr
  have hnone : row.evidence.source = none := hc
  constructor
  case status => rcases hstatus with h | h <;> rw [h] <;> decide
  case uncertain => rcases hstatus with h | h <;> rw [h] <;> intro hu <;> cases hu
  case pending => intro hpos; omega
  case answered => rcases hstatus with h | h <;> rw [h] <;> intro ha <;> cases ha
  case derived =>
    intro src hsrc
    rw [hnone] at hsrc
    cases hsrc

theorem insertable_admitted (rows : String → Option (Evidence Scores)) (c : Reserve)
    (hpos : 0 < c.inputUnits) : Insertable rows (admittedRow c : JevEvaluation Scores).evidence where
  status := fun h => by cases h
  uncertain := fun _ => hpos
  pending := fun _ => ⟨rfl, rfl⟩
  answered := fun h => by cases h
  derived := fun src hsrc => by cases hsrc

theorem insertable_cached (rows : Evaluations Scores) (c : Reserve)
    (source : String × JevEvaluation Scores) (hsource : rows.get source.1 = some source.2)
    (hunits : 0 < source.2.reservedInputUnits) (hanswered : source.2.status.answered = true) :
    Insertable (look rows) (cachedRow c source).evidence := by
  have hcases : source.2.status = .ranked ∨ source.2.status = .succeeded := by
    simpa [JevStatus.answered] using hanswered
  constructor
  case status =>
    show source.2.status ≠ .cached
    rcases hcases with h | h <;> rw [h] <;> decide
  case uncertain =>
    show source.2.status.uncertain = true → _
    rcases hcases with h | h <;> rw [h] <;> intro hc <;> cases hc
  case pending => intro hpos; cases hpos
  case answered => intro _ hc; cases hc
  case derived =>
    intro src hsrc
    cases hsrc
    exact ⟨source.2.evidence, look_eq_some rows _ _ hsource, hunits, hanswered, rfl⟩

theorem admitted_once (s : System Scores) (h : Inv sha256 s) (key : String) :
    s.replies.countP (fun r => isAdmission r && r.1.request.operationKey == key) ≤ 1 := by
  have honce := h.once (sha256 key)
  have hle : (look s.rows (sha256 key)).elim 0 Evidence.weight ≤ 1 := by
    cases look s.rows (sha256 key) with
    | none => exact Nat.zero_le 1
    | some e =>
      show (if 0 < e.reserved then 1 else 0) ≤ 1
      split <;> omega
  have hmono : s.replies.countP (fun r => isAdmission r && r.1.request.operationKey == key) ≤
      s.replies.countP (admittedAs sha256 (sha256 key)) := by
    apply List.countP_mono_left
    intro r _ hr
    simp only [Bool.and_eq_true, beq_iff_eq] at hr
    simp only [admittedAs, Bool.and_eq_true, beq_iff_eq]
    exact ⟨hr.1, by rw [hr.2]⟩
  omega

/-- The identity a row records. -/
def JevEvaluation.identity (row : JevEvaluation Scores) : RequestIdentity where
  requestDigest := row.requestDigest
  policyVersion := row.policyVersion
  kind := row.kind
  mode := row.requestedMode
  model := row.requestedModel
  worktreeDigest := row.worktreeDigest
  candidateDigest := row.candidateDigest
  scopeDigest := row.scopeDigest

/-- The code compares with the mode and the model of the policy, not with those of the call. -/
theorem sameIdentity_iff (row : JevEvaluation Scores) (c : Reserve) :
    sameIdentity row c.request c.requestDigest c.policy = true ↔
      row.identity = { c.identity with mode := c.policy.mode, model := c.policy.model } := by
  simp [sameIdentity, JevEvaluation.identity, Reserve.identity, and_assoc]

section steps
variable [EmptyCollection Scores]

/- A replayed answer goes back to an admission, directly or through its source row. -/
theorem served_replayed (s : System Scores) (h : Inv sha256 s) (c : Reserve)
    (existing source : JevEvaluation Scores)
    (hget : s.rows.get (sha256 c.request.operationKey) = some existing)
    (hanswered : existing.status.answered = true) (hsource : sourceOf s.rows existing = some source)
    (hfresh : c.now < source.createdAt + c.ttl) :
    Served sha256 s c (existing.scores.getD ∅) := by
  have hlook := look_eq_some s.rows _ existing hget
  cases hfrom : existing.cacheSourceDigest with
  | none =>
    simp only [sourceOf, hfrom] at hsource
    cases hsource
    have hpos : 0 < existing.evidence.reserved := by
      rcases h.rows.answered _ _ hlook hanswered with hr | hs
      · exact hr
      · exact absurd hfrom hs
    obtain ⟨answers, hscores, hserved⟩ := served_of_source s h c _ _ hlook hpos hanswered hfresh
    have hsome : existing.scores = some answers := hscores
    rw [hsome]
    exact hserved
  | some src =>
    simp only [sourceOf, hfrom] at hsource
    obtain ⟨e, he, hpos, hans, hsame⟩ := h.rows.derived _ _ src hlook hfrom
    have he' := look_eq_some s.rows src source hsource
    rw [he'] at he
    cases he
    obtain ⟨answers, hscores, hserved⟩ := served_of_source s h c src _ he' hpos hans hfresh
    have hsome : existing.scores = some answers := hsame.trans hscores
    rw [hsome]
    exact hserved

theorem inv_reserve (s : System Scores) (h : Inv sha256 s) (c : Reserve) (hpos : 0 < c.inputUnits)
    (rows : Evaluations Scores) (reply : Option (JevResult Scores))
    (hres : Reserves sha256 s.rows c rows reply) :
    Inv sha256 { s with rows := rows, replies := (c, .ok reply) :: s.replies } := by
  cases hres with
  | told r hstatus =>
    apply inv_reply s h s.rows c _ rfl rfl rfl
    intro r' hr' hc
    cases hr'
    obtain ⟨d, row, hrow, hcached⟩ := hstatus hc
    exact absurd hcached (h.rows.status d _ (look_eq_some s.rows d row hrow))
  | replayed existing source r hget hanswered hsource hfresh hr =>
    have hlook := look_put_same s.rows (sha256 c.request.operationKey) existing
      { existing with cacheHits := existing.cacheHits + 1 } hget rfl
    apply inv_reply s h _ c (.ok (some r)) hlook ?_ rfl
    · intro r' hr' hc
      cases hr'
      rw [hr]
      exact served_replayed s h c existing source hget hanswered hsource hfresh
    · rw [calls_eq_total, calls_eq_total]
      have htotal := total_replace (fun _ row => if 0 < row.reservedInputUnits then 1 else 0) s.rows
        (sha256 c.request.operationKey) { existing with cacheHits := existing.cacheHits + 1 }
        existing hget
      simp only at htotal
      omega
  | cached source r hget hsource hunits hanswered hfresh hr =>
    apply inv_insert s h c _ _ hget (insertable_cached s.rows c source hsource hunits hanswered)
    · simp [cachedRow]
    · intro hn
      cases hn
    · intro r' hr' hc
      cases hr'
      obtain ⟨answers, hscores, hserved⟩ := served_of_source s h c source.1 source.2.evidence
        (look_eq_some s.rows _ _ hsource) hunits hanswered hfresh
      have hsome : source.2.scores = some answers := hscores
      rw [hr, hsome]
      exact hserved
  | refused row r hget hr hrow =>
    obtain ⟨hstatus, hzero, hnone⟩ := hrow
    apply inv_insert s h c row _ hget (insertable_refusal _ row (Or.inr hstatus) hzero hnone)
    · simp [hzero]
    · intro hn
      cases hn
    · intro r' hr' hc
      cases hr'
      exact absurd hc hr
  | admitted hget hfree hcalls hunits =>
    apply inv_insert s h c _ _ hget (insertable_admitted _ c hpos)
    · simpa [admittedRow] using hpos
    · intro _
      rfl
    · intro r' hr' hc
      cases hr'

theorem inv_step (s : System Scores) (h : Inv sha256 s) (call : Call Scores) (hp : Proper call) :
    Inv sha256 (step sha256 s call) := by
  cases call with
  | reserve c =>
    simp only [step]
    split
    · next rows reply hok => exact inv_reserve s h c hp rows reply (reserve_reserves _ _ _ _ hok)
    · next e herr =>
      exact inv_reply s h s.rows c (.error e) rfl rfl rfl fun r hr => by cases hr
  | settle request response =>
    simp only [step]
    split
    · next rows hok =>
      unfold settle at hok
      simp only [bind_eq_ok, orRaise_eq_ok] at hok
      obtain ⟨row, hget, hok⟩ := hok
      have hlook := look_eq_some s.rows _ row hget
      split at hok
      · next hnot =>
        cases hok
        have hno : settles sha256 s.rows request = false := by
          simp [settles, hget, hnot]
        simp only [hno, Bool.false_eq_true, if_false]
        exact h
      · next hpend =>
        have hpending : row.status = .pending := not_not.mp hpend
        simp only [bind_eq_ok, require_eq_ok, exists_const] at hok
        obtain ⟨hvalid, hok⟩ := hok
        cases hok
        have hyes : settles sha256 s.rows request = true := by
          simp [settles, hget, hpending]
        simp only [hyes, if_true]
        have hpos : 0 < row.reservedInputUnits :=
          h.rows.uncertain _ _ hlook (by show row.status.uncertain = true; rw [hpending]; rfl)
        have hmax : 0 < (settledRow sha256 row response).reservedInputUnits :=
          Nat.lt_of_lt_of_le hpos (Nat.le_max_left _ _)
        apply inv_rows s h _ _ _ ?_ (fun r hr => List.mem_cons_of_mem _ hr)
        · rw [hlook, Option.elim_some]
          show (if 0 < (settledRow sha256 row response).reservedInputUnits then 1 else 0) =
            if 0 < row.reservedInputUnits then 1 else 0
          rw [if_pos hmax, if_pos hpos]
        · intro e he
          rw [hlook] at he
          cases he
          rfl
        · have hscores : (settledRow sha256 row response).status.answered = true →
              (settledRow sha256 row response).scores = some response.answers := fun ha => if_pos ha
          exact rowsInv_settle _ _ h.rows _ _ (settledRow sha256 row response).evidence response hlook
            hpending rfl (Nat.le_max_left _ _) rfl hscores hvalid
    · exact h
  | observeUnavailable c =>
    simp only [step]
    split
    · next rows hok =>
      unfold observeUnavailable at hok
      rw [bind_eq_ok] at hok
      obtain ⟨-, -, hok⟩ := hok
      simp only [recordRefusal] at hok
      split at hok
      · split at hok
        · cases hok
          exact h
        · cases hok
      · next hget =>
        cases hok
        have hlook : look s.rows (sha256 c.request.operationKey) = none := by rw [look, hget]; rfl
        apply inv_rows s h _ _ _ ?_ (fun r hr => hr)
        · rw [hlook]
          rfl
        · intro e he
          rw [hlook] at he
          cases he
        · exact rowsInv_insert _ _ h.rows _ _ hlook
            (insertable_refusal _ _ (Or.inl rfl) rfl rfl)
    · exact h

theorem inv_run (calls : List (Call Scores)) (h : ∀ c ∈ calls, Proper c) (s : System Scores)
    (hs : Inv sha256 s) : Inv sha256 (run (step sha256) s calls) := by
  induction calls generalizing s with
  | nil => exact hs
  | cons c calls ih =>
    have hfirst := inv_step s hs c (h c List.mem_cons_self)
    exact ih (fun c' hc' => h c' (List.mem_cons_of_mem _ hc')) _ hfirst

/-- A settlement reports more units than its admission reserved. -/
def Overshoots (sha256 : String → String) (s : System Scores) : Call Scores → Prop
  | .settle request response => ∃ row, s.rows.get (sha256 request.operationKey) = some row ∧
      row.status = .pending ∧ row.reservedInputUnits < response.inputUnits
  | _ => False

/- Only an admission and an overshooting settlement add reserved units. -/
theorem reservedUnits_step (s : System Scores) (call : Call Scores) (bound : ℕ)
    (hbound : ∀ c, call = .reserve c → c.maxInputUnits ≤ bound)
    (hover : ¬ Overshoots sha256 s call) (h : reservedUnits s.rows ≤ bound) :
    reservedUnits (step sha256 s call).rows ≤ bound := by
  cases call with
  | reserve c =>
    simp only [step]
    split
    · next rows reply hok =>
      cases reserve_reserves s.rows rows c reply hok with
      | told r hstatus => exact h
      | replayed existing source r hget hanswered hsource hfresh hr =>
        have htotal := total_replace (fun _ row => row.reservedInputUnits) s.rows
          (sha256 c.request.operationKey) { existing with cacheHits := existing.cacheHits + 1 }
          existing hget
        simp only [reservedUnits_eq_total] at h htotal ⊢
        omega
      | cached source r hget hsource hunits hanswered hfresh hr =>
        have htotal := total_insert (fun _ row => row.reservedInputUnits) s.rows
          (sha256 c.request.operationKey) (cachedRow c source) hget
        simp only [reservedUnits_eq_total, cachedRow] at h htotal ⊢
        omega
      | refused row r hget hr hrow =>
        have htotal := total_insert (fun _ row => row.reservedInputUnits) s.rows
          (sha256 c.request.operationKey) row hget
        simp only [reservedUnits_eq_total, hrow.2.1] at h htotal ⊢
        omega
      | admitted hget hfree hcalls hunits =>
        have htotal := total_insert (fun _ row => row.reservedInputUnits) s.rows
          (sha256 c.request.operationKey) (admittedRow c) hget
        have hmax := hbound c rfl
        simp only [reservedUnits_eq_total, admittedRow] at h hunits htotal ⊢
        omega
    · exact h
  | settle request response =>
    simp only [step]
    split
    · next rows hok =>
      unfold settle at hok
      simp only [bind_eq_ok, orRaise_eq_ok] at hok
      obtain ⟨row, hget, hok⟩ := hok
      split at hok
      · cases hok
        exact h
      · next hpend =>
        simp only [bind_eq_ok, require_eq_ok, exists_const] at hok
        obtain ⟨-, hok⟩ := hok
        cases hok
        have hle : response.inputUnits ≤ row.reservedInputUnits := by
          by_contra hlt
          exact hover ⟨row, hget, not_not.mp hpend, by omega⟩
        have hsame : (settledRow sha256 row response).reservedInputUnits = row.reservedInputUnits :=
          Nat.max_eq_left hle
        have htotal := total_replace (fun _ row => row.reservedInputUnits) s.rows
          (sha256 request.operationKey) (settledRow sha256 row response) row hget
        simp only [reservedUnits_eq_total, hsame] at h htotal ⊢
        omega
    · exact h
  | observeUnavailable c =>
    simp only [step]
    split
    · next rows hok =>
      unfold observeUnavailable at hok
      rw [bind_eq_ok] at hok
      obtain ⟨-, -, hok⟩ := hok
      simp only [recordRefusal] at hok
      split at hok
      · split at hok
        · cases hok
          exact h
        · cases hok
      · next hget =>
        cases hok
        rw [reservedUnits_eq_total] at h ⊢
        rw [total_insert _ _ _ _ hget]
        exact h
    · exact h

/-! ### The identity of an admission -/

/-- No call takes a row away or changes what it records of its request. -/
theorem step_identity (s : System Scores) (call : Call Scores) (d : String) (row : JevEvaluation Scores)
    (h : s.rows.get d = some row) :
    ∃ row', (step sha256 s call).rows.get d = some row' ∧ row'.identity = row.identity := by
  have hinsert : ∀ d' new, s.rows.get d' = none →
      ∃ row', (s.rows.put d' new).get d = some row' ∧ row'.identity = row.identity := by
    intro d' new hnone
    refine ⟨row, ?_, rfl⟩
    rw [Table.get_put_ne _ _ (Table.ne_of_get _ hnone h)]
    exact h
  have hreplace : ∀ d' old new, s.rows.get d' = some old → new.identity = old.identity →
      ∃ row', (s.rows.put d' new).get d = some row' ∧ row'.identity = row.identity := by
    intro d' old new hold hsame
    by_cases hd : d = d'
    · subst hd
      rw [h] at hold
      cases hold
      exact ⟨new, Table.get_put_self _ _ _, hsame⟩
    · exact ⟨row, by rw [Table.get_put_ne _ _ hd]; exact h, rfl⟩
  cases call with
  | reserve c =>
    simp only [step]
    split
    · next rows reply hok =>
      cases reserve_reserves s.rows rows c reply hok with
      | told r hstatus => exact ⟨row, h, rfl⟩
      | replayed existing source r hget => exact hreplace _ existing _ hget rfl
      | cached source r hget => exact hinsert _ _ hget
      | refused new r hget => exact hinsert _ _ hget
      | admitted hget => exact hinsert _ _ hget
    · exact ⟨row, h, rfl⟩
  | settle request response =>
    simp only [step]
    split
    · next rows hok =>
      unfold settle at hok
      simp only [bind_eq_ok, orRaise_eq_ok] at hok
      obtain ⟨old, hget, hok⟩ := hok
      split at hok
      · cases hok
        exact ⟨row, h, rfl⟩
      · simp only [bind_eq_ok] at hok
        obtain ⟨-, -, hok⟩ := hok
        cases hok
        exact hreplace _ old _ hget rfl
    · exact ⟨row, h, rfl⟩
  | observeUnavailable c =>
    simp only [step]
    split
    · next rows hok =>
      unfold observeUnavailable at hok
      rw [bind_eq_ok] at hok
      obtain ⟨-, -, hok⟩ := hok
      simp only [recordRefusal] at hok
      split at hok
      · split at hok
        · cases hok
          exact ⟨row, h, rfl⟩
        · cases hok
      · next hget =>
        cases hok
        exact hinsert _ _ hget
    · exact ⟨row, h, rfl⟩

/-- The row of an admission records the identity of the call that was admitted. -/
def Identified (sha256 : String → String) (s : System Scores) : Prop :=
  ∀ c, (c, .ok none) ∈ s.replies →
    ∃ row, s.rows.get (sha256 c.request.operationKey) = some row ∧ row.identity = c.identity

theorem identified_step (s : System Scores) (call : Call Scores) (h : Identified sha256 s) :
    Identified sha256 (step sha256 s call) := by
  intro c hc
  by_cases hold : (c, .ok none) ∈ s.replies
  · obtain ⟨row, hrow, hid⟩ := h c hold
    obtain ⟨row', hrow', hsame⟩ := step_identity s call _ row hrow
    exact ⟨row', hrow', hsame.trans hid⟩
  · -- the admission is the reply of this very call
    cases call with
    | reserve c' =>
      simp only [step] at hc ⊢
      split at hc
      · next rows reply hok =>
        rcases List.mem_cons.mp hc with heq | hin
        · cases heq
          cases reserve_reserves s.rows rows c none hok with
          | admitted hget => exact ⟨_, Table.get_put_self _ _ _, rfl⟩
        · exact absurd hin hold
      · rcases List.mem_cons.mp hc with heq | hin
        · cases heq
        · exact absurd hin hold
    | settle request response =>
      simp only [step] at hc
      split at hc
      · exact absurd hc hold
      · exact absurd hc hold
    | observeUnavailable c' =>
      simp only [step] at hc
      split at hc
      · exact absurd hc hold
      · exact absurd hc hold

theorem identified_run (calls : List (Call Scores)) :
    Identified sha256 (run (step sha256) System.init calls) := by
  apply run_invariant _ _ fun s call h => identified_step s call h
  intro c hc
  cases hc

/- An admission leaves at most as many calls as it was allowed. -/
theorem calls_step (s : System Scores) (h : Inv sha256 s) (call : Call Scores) (hp : Proper call)
    (bound : ℕ) (hbound : ∀ c, call = .reserve c → c.maxRequests ≤ bound)
    (hle : s.replies.countP isAdmission ≤ bound) :
    (step sha256 s call).replies.countP isAdmission ≤ bound := by
  cases call with
  | reserve c =>
    simp only [step]
    split
    · next rows reply hok =>
      cases reserve_reserves s.rows rows c reply hok with
      | told r | replayed | cached | refused =>
        simp only [List.countP_cons, isAdmission, Bool.false_eq_true, if_false]
        exact hle
      | admitted hget hfree hcalls hunits =>
        have hmax := hbound c rfl
        have hcount := h.counted
        simp only [List.countP_cons, isAdmission, if_true] at hle hcount ⊢
        omega
    · simp only [List.countP_cons, isAdmission, Bool.false_eq_true, if_false]
      exact hle
  | settle request response =>
    simp only [step]
    split
    · exact hle
    · exact hle
  | observeUnavailable c =>
    simp only [step]
    split
    · exact hle
    · exact hle

/- A row in doubt keeps every request with its identity from being admitted. -/
theorem uncertain_blocks (s : System Scores) (h : Inv sha256 s) (c : Reserve) (d : String)
    (row : JevEvaluation Scores) (hrow : s.rows.get d = some row)
    (hu : row.status.uncertain = true)
    (hsame : sameIdentity row c.request c.requestDigest c.policy = true)
    (rows : Evaluations Scores) : reserve sha256 s.rows c ≠ .ok (rows, none) := by
  intro hok
  have hpos : 0 < row.reservedInputUnits :=
    h.rows.uncertain d _ (look_eq_some s.rows d row hrow) hu
  have hdigest : row.requestDigest = c.requestDigest := by
    simp only [sameIdentity, Bool.and_eq_true, beq_iff_eq] at hsame
    exact hsame.1.1.1.1.1.1.1
  cases reserve_reserves s.rows rows c none hok with
  | admitted hget hfree hcalls hunits =>
    have hmem : (d, row) ∈ matchesOf s.rows c.requestDigest :=
      (mem_matchesOf s.rows c.requestDigest d row).mpr ⟨hrow, hdigest, hpos, Or.inl hu⟩
    have hany : uncertainMatch s.rows c = true := by
      rw [uncertainMatch, List.any_eq_true]
      exact ⟨(d, row), hmem, by simp [hu, hsame]⟩
    rw [hany] at hfree
    cases hfree

theorem calls_run (calls : List (Call Scores)) (bound : ℕ) (hp : ∀ c ∈ calls, Proper c)
    (hb : ∀ c, .reserve c ∈ calls → c.maxRequests ≤ bound) (s : System Scores) (hs : Inv sha256 s)
    (hle : s.replies.countP isAdmission ≤ bound) :
    (run (step sha256) s calls).replies.countP isAdmission ≤ bound := by
  induction calls generalizing s with
  | nil => exact hle
  | cons c calls ih =>
    have hc := hp c List.mem_cons_self
    have hfirst := calls_step s hs c hc bound (fun c' hc' => hb c' (hc' ▸ List.mem_cons_self)) hle
    exact ih (fun c' hc' => hp c' (List.mem_cons_of_mem _ hc'))
      (fun c' hc' => hb c' (List.mem_cons_of_mem _ hc')) (step sha256 s c) (inv_step s hs c hc) hfirst

theorem reservedUnits_run (calls : List (Call Scores)) (bound : ℕ)
    (hb : ∀ c, .reserve c ∈ calls → c.maxInputUnits ≤ bound) (s : System Scores)
    (ha : Along (step sha256) (fun s c => ¬ Overshoots sha256 s c) s calls)
    (hle : reservedUnits s.rows ≤ bound) :
    reservedUnits (run (step sha256) s calls).rows ≤ bound := by
  induction calls generalizing s with
  | nil => exact hle
  | cons c calls ih =>
    have hfirst := reservedUnits_step s c bound (fun c' hc' => hb c' (hc' ▸ List.mem_cons_self))
      ha.1 hle
    exact ih (fun c' hc' => hb c' (List.mem_cons_of_mem _ hc')) (step sha256 s c) ha.2 hfirst

/-- What holds in the state `s` that the calls lead to. -/
structure Bounded (sha256 : String → String) (calls : List (Call Scores)) (s : System Scores) :
    Prop where
  /- permission is given at most once for an operation key -/
  once : ∀ key, s.replies.countP (fun r => isAdmission r && r.1.request.operationKey == key) ≤ 1
  /- while an admission is pending or settled unknown, no call for the model of its policy gets
  another permission with the same identity -/
  exclusive : ∀ admission row, (admission, .ok none) ∈ s.replies →
    s.rows.get (sha256 admission.request.operationKey) = some row →
    row.status = .pending ∨ row.status = .unknown →
    ∀ c : Reserve, c.mode = c.policy.mode → c.model = c.policy.model →
      c.identity = admission.identity → ∀ rows, reserve sha256 s.rows c ≠ .ok (rows, none)
  requests : ∀ maxRequests, (∀ c, .reserve c ∈ calls → c.maxRequests ≤ maxRequests) →
    s.replies.countP isAdmission ≤ maxRequests
  units : ∀ maxInputUnits, (∀ c, .reserve c ∈ calls → c.maxInputUnits ≤ maxInputUnits) →
    Along (step sha256) (fun s c => ¬ Overshoots sha256 s c) System.init calls →
    reservedUnits s.rows ≤ maxInputUnits
  /- every answer from the cache or a replay is that of an admission within the time to live -/
  fresh : ∀ c r, (c, .ok (some r)) ∈ s.replies → r.status = .cached → Served sha256 s c r.answers

/-- Every interleaving of calls leads to a state with bounded admissions. -/
theorem admissions_bounded (sha256 : String → String) (calls : List (Call Scores))
    (hproper : ∀ c ∈ calls, Proper c) :
    Bounded sha256 calls (run (step sha256) System.init calls) := by
  have hinv : Inv sha256 (run (step sha256) System.init calls) :=
    inv_run calls hproper System.init inv_init
  constructor
  case once => exact admitted_once _ hinv
  case exclusive =>
    intro admission row hadmitted hrow hstatus c hmode hmodel hidentity rows
    obtain ⟨row', hrow', hrecorded⟩ := identified_run calls admission hadmitted
    rw [hrow] at hrow'
    cases hrow'
    have hsame : sameIdentity row c.request c.requestDigest c.policy = true := by
      rw [sameIdentity_iff, hrecorded, ← hidentity, ← hmode, ← hmodel]
      rfl
    have hu : row.status.uncertain = true := by
      rcases hstatus with h | h
      · rw [h]; rfl
      · rw [h]; rfl
    exact uncertain_blocks _ hinv c _ row hrow hu hsame rows
  case requests =>
    intro bound hbound
    exact calls_run calls bound hproper hbound System.init inv_init (Nat.zero_le _)
  case units =>
    intro bound hbound halong
    exact reservedUnits_run calls bound hbound System.init halong (Nat.zero_le _)
  case fresh => exact hinv.served

end steps

/- Two operations with one request: the second waits for the first and is then
answered from it, with one admission in all. -/

def sampleDigest (key : String) : String :=
  if key = "op-1" then "71a0ef7195df486543f63f0cb1dff83ee245c10fb566219b128a7fa99a8bbbac"
  else "e85fddc91eb032ab01ba4273740111289939def3322ad7da2c163273fa3e19d4"

def samplePolicy : JevPolicy where
  mode := .on
  allowRemote := true
  model := "jev-latest"
  semanticSearch := true
  reviewFocus := true
  topK := 15
  maxRequestsPerRun := 64
  maxInputUnitsPerRun := 250000
  maxCandidates := 96
  maxResultChars := 12000
  timeoutSeconds := 15
  cacheTtlSeconds := 3600

def sampleRequest (key : String) : JevRequest where
  policyVersion := 1
  operationKey := key
  kind := .searchRanking
  worktreeDigest := "50e721e49c013f00c62cf59f2163542a9d8df02464efeb615d31051b0fddc326"
  candidateDigest := none
  scopeDigest := none

def sampleReserve (key : String) (now : ℤ) : Reserve where
  request := sampleRequest key
  requestDigest := "454349e422f05297191ead13e21d3db520e5abef52055e4964b82fb213f593a1"
  model := "jev-latest"
  inputUnits := 40
  maxRequests := 64
  maxInputUnits := 250000
  mode := .on
  policy := samplePolicy
  bound := .ok (some samplePolicy)
  now := now
  createdAt := now

def sampleCalls : List (Call (List ℕ)) :=
  [.reserve (sampleReserve "op-1" 0), .reserve (sampleReserve "op-2" 1000000),
    .settle (sampleRequest "op-1") { status := .ranked, answers := [2, 1], inputUnits := 30 },
    .reserve (sampleReserve "op-2" 2000000)]

theorem admissions_bounded_sample :
    (∀ c ∈ sampleCalls, Proper c) ∧
    (run (step sampleDigest) System.init sampleCalls).replies.map isAdmission = [false, false, true] ∧
    Bounded sampleDigest sampleCalls (run (step sampleDigest) System.init sampleCalls) := by
  have hproper : ∀ c ∈ sampleCalls, Proper c := by
    intro c hc
    simp only [sampleCalls, List.mem_cons, List.not_mem_nil, or_false] at hc
    rcases hc with rfl | rfl | rfl | rfl
    · show 0 < 40
      decide
    · show 0 < 40
      decide
    · trivial
    · show 0 < 40
      decide
  exact ⟨hproper, by decide +kernel, admissions_bounded sampleDigest sampleCalls hproper⟩

/-- Two reservations that differ in their keys only, for a model that is not the policy's. -/
def otherModel (key : String) (now : ℤ) : Reserve := { sampleReserve key now with model := "jev-next" }

def otherModelCalls : List (Call (List ℕ)) :=
  [.reserve (otherModel "op-1" 0), .reserve (otherModel "op-2" 1000000)]

/-- The second is admitted while the first is pending. -/
theorem admissions_bounded_model :
    (∀ c ∈ otherModelCalls, Proper c) ∧
    (∀ key now, (otherModel key now).mode = (otherModel key now).policy.mode) ∧
    (otherModel "op-1" 0).identity = (otherModel "op-2" 1000000).identity ∧
    let s := run (step sampleDigest) System.init otherModelCalls
    s.replies.map isAdmission = [true, true] ∧
      ((s.rows.get (sampleDigest "op-1")).map fun row => row.status) = some .pending := by
  refine ⟨?_, fun _ _ => rfl, by decide, by decide +kernel, by decide +kernel⟩
  intro c hc
  simp only [otherModelCalls, List.mem_cons, List.not_mem_nil, or_false] at hc
  rcases hc with rfl | rfl
  · show 0 < 40
    decide
  · show 0 < 40
    decide

end ParallelForge.Jev
