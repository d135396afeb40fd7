import ParallelForge.Release.Reviews

/-!
# The review gate

Of each reviewer the loop keeps the latest decisive review, if there is one, and
else the latest. So whenever the reviews can be read at all, a kept snapshot blocks
exactly for an unresolved thread or a standing objection. They never can: the
document of the threads leaves a selection open.
-/

namespace ParallelForge.Release.Reviews
open Base

/-! ## The loop over the reviews -/

theorem notBefore_refl (a : Option ℤ) : notBefore a a = true := by
  cases a <;> simp [notBefore]

theorem notBefore_total (a b : Option ℤ) (h : notBefore a b = false) : notBefore b a = true := by
  cases a with
  | none =>
    cases b with
    | none => rfl
    | some u => rfl
  | some t =>
    cases b with
    | none => cases h
    | some u =>
      simp only [notBefore, decide_eq_false_iff_not, decide_eq_true_eq] at h ⊢
      omega

theorem notBefore_trans (a b c : Option ℤ) (hab : notBefore a b = true) (hbc : notBefore b c = true) :
    notBefore a c = true := by
  cases c with
  | none => cases a <;> rfl
  | some v =>
    cases b with
    | none => cases hbc
    | some u =>
      cases a with
      | none => cases hab
      | some t =>
        simp only [notBefore, decide_eq_true_eq] at hab hbc ⊢
        omega

theorem notBefore_antisymm (a b : Option ℤ) (hab : notBefore a b = true) (hba : notBefore b a = true) :
    a = b := by
  cases a with
  | none =>
    cases b with
    | none => rfl
    | some u => cases hab
  | some t =>
    cases b with
    | none => cases hba
    | some u =>
      simp only [notBefore, decide_eq_true_eq] at hab hba
      rw [show t = u by omega]

/-- `c` does not come before `s`: a decision is after anything else. -/
structure Below (c s : ReviewSnapshot) : Prop where
  decisive : c.decisive = true → s.decisive = true
  time : c.decisive = s.decisive → notBefore s.submittedAt c.submittedAt = true

theorem Below.refl (c : ReviewSnapshot) : Below c c := ⟨id, fun _ => notBefore_refl _⟩

theorem Below.trans {a b c : ReviewSnapshot} (h : Below a b) (h' : Below b c) : Below a c := by
  refine ⟨fun ha => h'.decisive (h.decisive ha), ?_⟩
  intro hac
  have hab : a.decisive = b.decisive := by
    cases ha : a.decisive with
    | true => exact (h.decisive ha).symm
    | false =>
      cases hb : b.decisive with
      | false => rfl
      | true =>
        have hc := h'.decisive hb
        rw [← hac, ha] at hc
        cases hc
  exact notBefore_trans _ _ _ (h'.time (hab.symm.trans hac)) (h.time hab)

theorem replaces_iff (s c : ReviewSnapshot) : replaces (some s) c = true ↔ Below s c := by
  have hbelow : Below s c ↔ (s.decisive = true → c.decisive = true) ∧
      (s.decisive = c.decisive → notBefore c.submittedAt s.submittedAt = true) :=
    ⟨fun h => ⟨h.decisive, h.time⟩, fun h => ⟨h.1, h.2⟩⟩
  rw [hbelow, replaces]
  cases s.decisive with
  | true => cases c.decisive <;> simp
  | false => cases c.decisive <;> simp

theorem below_of_kept (s c : ReviewSnapshot) (h : replaces (some s) c = false) : Below c s := by
  rw [replaces] at h
  constructor
  case decisive =>
    intro hc
    cases hs : s.decisive with
    | true => rfl
    | false => simp [hc, hs] at h
  case time =>
    intro hcs
    rw [hcs] at h
    simp only [Bool.and_not_self, beq_self_eq_true, Bool.true_and, Bool.false_or] at h
    exact notBefore_total _ _ h

variable {casefold : Str → Str}

/-- What the table holds after some candidates. -/
structure Kept (casefold : Str → Str) (seen : List ReviewSnapshot) (latest : Table Str ReviewSnapshot) :
    Prop where
  source : ∀ k s, latest.get k = some s → s ∈ seen ∧ casefold s.reviewer = k
  best : ∀ c ∈ seen, ∃ s, latest.get (casefold c.reviewer) = some s ∧ Below c s

theorem Kept.step {seen : List ReviewSnapshot} {latest : Table Str ReviewSnapshot}
    (h : Kept casefold seen latest) (c : ReviewSnapshot) :
    Kept casefold (seen ++ [c]) (keepLatest casefold latest c) := by
  have hold : ∀ k s, latest.get k = some s → s ∈ seen ++ [c] ∧ casefold s.reviewer = k := by
    intro k s hk
    obtain ⟨hmem, hkey⟩ := h.source k s hk
    exact ⟨List.mem_append_left _ hmem, hkey⟩
  unfold keepLatest
  split
  · next hreplaces =>
    constructor
    case source =>
      intro k s hk
      by_cases hkey : k = casefold c.reviewer
      · rw [hkey, Table.get_put_self, Option.some.injEq] at hk
        rw [← hk, hkey]
        exact ⟨List.mem_append_right _ List.mem_cons_self, rfl⟩
      · rw [Table.get_put_ne _ _ hkey] at hk
        exact hold k s hk
    case best =>
      intro d hd
      by_cases hkey : casefold d.reviewer = casefold c.reviewer
      · refine ⟨c, by rw [hkey, Table.get_put_self], ?_⟩
        rcases List.mem_append.mp hd with hseen | hnew
        · obtain ⟨s, hs, hbelow⟩ := h.best d hseen
          rw [← hkey, hs] at hreplaces
          exact hbelow.trans ((replaces_iff s c).mp hreplaces)
        · rw [List.mem_singleton.mp hnew]
          exact Below.refl c
      · rcases List.mem_append.mp hd with hseen | hnew
        · rw [Table.get_put_ne _ _ hkey]
          exact h.best d hseen
        · exact absurd (by rw [List.mem_singleton.mp hnew]) hkey
  · next hreplaces =>
    refine ⟨hold, ?_⟩
    intro d hd
    rcases List.mem_append.mp hd with hseen | hnew
    · exact h.best d hseen
    · rw [List.mem_singleton.mp hnew]
      cases hprior : latest.get (casefold c.reviewer) with
      | none => rw [hprior] at hreplaces; exact absurd rfl hreplaces
      | some s =>
        rw [hprior, Bool.not_eq_true] at hreplaces
        exact ⟨s, rfl, below_of_kept s c hreplaces⟩

theorem Kept.run (candidates : List ReviewSnapshot) {seen : List ReviewSnapshot}
    {latest : Table Str ReviewSnapshot} (h : Kept casefold seen latest) :
    Kept casefold (seen ++ candidates) (candidates.foldl (keepLatest casefold) latest) := by
  induction candidates generalizing seen latest with
  | nil =>
    rw [List.append_nil]
    exact h
  | cons c rest ih =>
    have hstep := ih (h.step c)
    rwa [List.append_assoc] at hstep

theorem kept_latest (candidates : List ReviewSnapshot) :
    Kept casefold candidates (candidates.foldl (keepLatest casefold) Table.empty) := by
  have hempty : Kept casefold [] Table.empty := by
    constructor
    case source => exact fun k s hk => by cases hk
    case best => exact fun c hc => by cases hc
  exact hempty.run candidates

/-- Some reviewer's latest decision is a request for changes. -/
def Objection (casefold : Str → Str) (candidates : List ReviewSnapshot) : Prop :=
  ∃ c ∈ candidates, c.state = .changesRequested ∧ ∀ d ∈ candidates,
    casefold d.reviewer = casefold c.reviewer → d.decisive = true →
      notBefore c.submittedAt d.submittedAt = true

/-- What `candidate` makes of a review. -/
structure FromReview (c : ReviewSnapshot) : Prop where
  requested : c.requestedChanges = (c.state == .changesRequested)
  threads : c.unresolvedThreads = 0

theorem FromReview.blocks_iff {c : ReviewSnapshot} (h : FromReview c) :
    c.blocksMerge = true ↔ c.state = .changesRequested := by
  rw [ReviewSnapshot.blocksMerge, h.requested, h.threads]
  simp

/-- Of reviews at distinct times, a kept one blocks exactly for a standing objection. -/
theorem latestReviews_blocks (candidates : List ReviewSnapshot)
    (hreviews : ∀ c ∈ candidates, FromReview c) (htimes : (candidates.map (·.submittedAt)).Nodup) :
    (latestReviews casefold candidates).any ReviewSnapshot.blocksMerge = true ↔
      Objection casefold candidates := by
  have hkept : Kept casefold candidates (candidates.foldl (keepLatest casefold) Table.empty) :=
    kept_latest candidates
  rw [latestReviews, List.any_eq_true]
  constructor
  · rintro ⟨s, hs, hblocks⟩
    obtain ⟨⟨k, s'⟩, hrow, rfl⟩ := List.mem_map.mp hs
    obtain ⟨hmem, hkey⟩ := hkept.source k s' ((Table.mem_rows_iff _ k s').mp hrow)
    have hstate := (hreviews s' hmem).blocks_iff.mp hblocks
    have hdecisive : s'.decisive = true := by rw [ReviewSnapshot.decisive, hstate]; rfl
    refine ⟨s', hmem, hstate, ?_⟩
    intro d hd hsame hdec
    obtain ⟨t, ht, hbelow⟩ := hkept.best d hd
    rw [hsame, hkey, (Table.mem_rows_iff _ k s').mp hrow, Option.some.injEq] at ht
    rw [← ht] at hbelow
    exact hbelow.time (hdec.trans hdecisive.symm)
  · rintro ⟨c, hc, hstate, hlatest⟩
    have hdecisive : c.decisive = true := by rw [ReviewSnapshot.decisive, hstate]; rfl
    obtain ⟨s, hs, hbelow⟩ := hkept.best c hc
    obtain ⟨hmem, hkey⟩ := hkept.source _ s hs
    have hsdec := hbelow.decisive hdecisive
    have htime := notBefore_antisymm _ _ (hlatest s hmem hkey hsdec)
      (hbelow.time (hdecisive.trans hsdec.symm))
    have hsame : c = s := List.inj_on_of_nodup_map htimes hc hmem htime
    refine ⟨s, List.mem_map.mpr ⟨(_, s), (Table.mem_rows_iff _ _ s).mpr hs, rfl⟩, ?_⟩
    rw [← hsame]
    exact (hreviews c hc).blocks_iff.mpr hstate

/-- Neither the order of the reviews nor their pages matter. -/
theorem latestReviews_order (candidates candidates' : List ReviewSnapshot)
    (hperm : candidates.Perm candidates') (hreviews : ∀ c ∈ candidates, FromReview c)
    (htimes : (candidates.map (·.submittedAt)).Nodup) :
    (latestReviews casefold candidates).any ReviewSnapshot.blocksMerge =
      (latestReviews casefold candidates').any ReviewSnapshot.blocksMerge := by
  have hreviews' : ∀ c ∈ candidates', FromReview c := fun c hc => hreviews c (hperm.mem_iff.mpr hc)
  have htimes' := (hperm.map (·.submittedAt)).nodup_iff.mp htimes
  rw [Bool.eq_iff_iff, latestReviews_blocks candidates hreviews htimes,
    latestReviews_blocks candidates' hreviews' htimes']
  simp only [Objection, hperm.mem_iff]

/-! ## What a successful reading says -/

theorem candidate_fromReview (api : Api) (item : Mapping) (c : ReviewSnapshot)
    (h : candidate api item = .ok c) : FromReview c := by
  simp only [candidate, bind_eq_ok] at h
  obtain ⟨user, -, reviewer, -, raw, -, state, -, submittedAt, -, body, -, hc⟩ := h
  cases hc
  exact ⟨rfl, rfl⟩

theorem unresolved_iff (resolved : List Bool) :
    0 < (resolved.filter (!·)).length ↔ false ∈ resolved := by
  rw [List.length_pos_iff_exists_mem]
  constructor
  · rintro ⟨b, hb⟩
    rw [List.mem_filter, Bool.not_eq_true'] at hb
    rw [← hb.2]
    exact hb.1
  · intro hfalse
    exact ⟨false, List.mem_filter.mpr ⟨hfalse, rfl⟩⟩

/-- Whenever the reviews are read, a snapshot blocks exactly for an unresolved thread or a
standing objection among what was read. -/
theorem getReviews_blocks (api : Api) (repo : Str) (number : ℤ) (snapshots : List ReviewSnapshot)
    (h : getReviews api repo number = .ok snapshots) :
    ∃ (threads items : List Mapping) (resolved : List Bool) (candidates : List ReviewSnapshot),
      reviewThreads api repo number = .ok threads ∧
      threads.mapM (fun t => bool (get t "isResolved")) = .ok resolved ∧
      items.mapM (candidate api) = .ok candidates ∧
      ((candidates.map (·.submittedAt)).Nodup →
        (snapshots.any ReviewSnapshot.blocksMerge = true ↔
          false ∈ resolved ∨ Objection api.casefold candidates)) := by
  simp only [getReviews, bind_eq_ok] at h
  obtain ⟨n, -, ⟨owner, name⟩, -, items, -, threads, hthreads, resolved, hresolved, counts, -,
    candidates, hcandidates, feedback, -, h⟩ := h
  refine ⟨threads, items, resolved, candidates, hthreads, hresolved, hcandidates, ?_⟩
  intro htimes
  have hreviews : ∀ c ∈ candidates, FromReview c := by
    intro c hc
    obtain ⟨item, -, hitem⟩ := forall₂_exists ((mapM_eq_ok _ _ _).mp hcandidates) c hc
    exact candidate_fromReview api item c hitem
  rw [← latestReviews_blocks candidates hreviews htimes, ← unresolved_iff]
  split at h
  · cases h
    rw [List.any_append, Bool.or_eq_true, or_comm, List.any_cons, List.any_nil, Bool.or_false]
    simp [ReviewSnapshot.blocksMerge, threadSnapshot]
  · next hnone =>
    cases h
    have hzero : ¬ 0 < (resolved.filter (!·)).length := fun hpos => hnone (Or.inl (by omega))
    simp [hzero]

/-! ## GitHub -/

structure Review where
  login : Str
  state : State
  submittedAt : ℤ
  body : Str

structure Thread where
  resolved : Bool
  comments : List Str

/-- A pull request within the bounds of the reader. -/
structure PullRequest where
  reviews : List Review
  threads : List Thread
  reviewCount : reviews.length < 2000
  threadCount : threads.length < 2000
  reviewBodies : ∀ r ∈ reviews, ∃ n ≤ 16384, Agents.utf8Length r.body = some n
  comments : ∀ t ∈ threads, ∀ body ∈ t.comments, ∃ n ≤ 16384, Agents.utf8Length body = some n
  times : (reviews.map (·.submittedAt)).Nodup

/-- Some thread is open, or the latest decision of some reviewer asks for changes. -/
def PullRequest.Blocked (casefold : Str → Str) (pr : PullRequest) : Prop :=
  (∃ t ∈ pr.threads, t.resolved = false) ∨
    ∃ r ∈ pr.reviews, r.state = .changesRequested ∧ ∀ s ∈ pr.reviews,
      casefold s.login = casefold r.login → s.state = .approved ∨ s.state = .changesRequested →
        s.submittedAt ≤ r.submittedAt

/-- The braces of a document, by the number of open ones. -/
def balancedFrom : ℕ → Str → Bool
  | depth, [] => depth == 0
  | depth, c :: s =>
    if c = 123 then balancedFrom (depth + 1) s
    else if c = 125 then
      match depth with
      | 0 => false
      | d + 1 => balancedFrom d s
    else balancedFrom depth s

def balanced (document : Str) : Bool := balancedFrom 0 document

def stateText : State → Str
  | .approved => codes "APPROVED"
  | .changesRequested => codes "CHANGES_REQUESTED"
  | .commented => codes "COMMENTED"
  | .dismissed => codes "DISMISSED"
  | .pending => codes "PENDING"
  | .threads => []

/-- The other side: its pull request, how it prints a time, what it selects for a balanced
document, and the errors it names for any other. -/
structure GitHub where
  pr : PullRequest
  isoformat : ℤ → Str
  selected : Str → Option Str → Json
  errors : List Json

def GitHub.reviewMapping (g : GitHub) (r : Review) : Mapping :=
  [(codes "user", .obj [(codes "login", .str r.login)]), (codes "state", .str (stateText r.state)),
    (codes "submitted_at", .str (g.isoformat r.submittedAt)), (codes "body", .str r.body)]

/-- What it answers; pages hold a hundred reviews. -/
def GitHub.serve (g : GitHub) : Request → Read Json
  | .page _ _ _ page =>
    .ok (.arr (((g.pr.reviews.drop ((page - 1) * 100)).take 100).map fun r => .obj (g.reviewMapping r)))
  | .graphql document _ _ _ cursor =>
    if balanced document = true then .ok (g.selected document cursor)
    else .ok (.obj [(codes "errors", .arr g.errors)])

def GitHub.api (g : GitHub) (fromIsoformat : Str → Option ℤ) (casefold : Str → Str) : Api :=
  ⟨g.serve, fromIsoformat, casefold⟩

/-- The reviews are read, and some snapshot blocks exactly where the pull request is blocked. -/
def BlocksExactly (api : Api) (pr : PullRequest) (repo : Str) (number : ℤ) : Prop :=
  ∃ snapshots, getReviews api repo number = .ok snapshots ∧
    (snapshots.any ReviewSnapshot.blocksMerge = true ↔ pr.Blocked api.casefold)

variable (g : GitHub) (fromIsoformat : Str → Option ℤ) (casefold)

/- The pages up to the limit hold every review once, in order. -/
theorem pagesFrom_serve (owner name : Str) (number : ℤ) (fuel page : ℕ) (hpage : 1 ≤ page)
    (hfit : g.pr.reviews.length < (page - 1) * 100 + fuel * 100)
    (hstart : (page - 1) * 100 ≤ g.pr.reviews.length) :
    pagesFrom (g.api fromIsoformat casefold) (fun page => .page owner name number page) fuel page =
      .ok ((g.pr.reviews.drop ((page - 1) * 100)).map g.reviewMapping) := by
  induction fuel generalizing page with
  | zero => omega
  | succ fuel ih =>
    have hmapping : ∀ l : List Review,
        (l.map fun r => Json.obj (g.reviewMapping r)).mapM mapping = .ok (l.map g.reviewMapping) := by
      intro l
      rw [mapM_eq_ok, List.forall₂_map_left_iff, List.forall₂_map_right_iff, List.forall₂_same]
      exact fun r _ => rfl
    have hlength : (((g.pr.reviews.drop ((page - 1) * 100)).take 100).map
        fun r => Json.obj (g.reviewMapping r)).length = min 100 (g.pr.reviews.length - (page - 1) * 100) := by
      rw [List.length_map, List.length_take, List.length_drop]
    simp only [pagesFrom, GitHub.api, GitHub.serve, list, bind_eq_ok, Except.ok.injEq, exists_eq_left']
    refine ⟨_, hmapping _, ?_⟩
    rw [hlength]
    split
    · next hlast =>
      rw [List.take_of_length_le (by rw [List.length_drop]; omega)]
      rfl
    · next hfull =>
      rw [bind_eq_ok]
      have hrest := ih (page + 1) (by omega) (by omega) (by omega)
      refine ⟨_, hrest, ?_⟩
      have hnext : (page + 1 - 1) * 100 = (page - 1) * 100 + 100 := by omega
      rw [hnext, ← List.drop_drop, ← List.map_append, List.take_append_drop]
      rfl

theorem threadsQuery_open : balanced threadsQuery = false := by decide +kernel

/- Whatever the pull request, its threads cannot be read. -/
theorem threadsFrom_refused (owner name : Str) (number : ℤ) :
    threadsFrom (g.api fromIsoformat casefold) owner name number maxPages none =
      .error .malformedResponse := by
  have hserve : (g.api fromIsoformat casefold).json (.graphql threadsQuery owner name number none) =
      .ok (.obj [(codes "errors", .arr g.errors)]) := by
    rw [GitHub.api]
    simp only [GitHub.serve]
    rw [if_neg (by rw [threadsQuery_open]; simp)]
  rw [maxPages, threadsFrom, hserve]
  rfl

/-- For every pull request within the bounds the answer is a malformed response. -/
theorem getReviews_malformed (repo owner name : Str) (number : ℤ)
    (hrepo : repository repo = .ok (owner, name)) (hnumber : 1 ≤ number) :
    getReviews (g.api fromIsoformat casefold) repo number = .error .malformedResponse := by
  have hpages : pages (g.api fromIsoformat casefold) (fun page => .page owner name number page) =
      .ok (g.pr.reviews.map g.reviewMapping) := by
    have hcount := g.pr.reviewCount
    have hserve := pagesFrom_serve casefold g fromIsoformat owner name number maxPages 1 (by omega)
      (by rw [maxPages]; omega) (by omega)
    exact hserve
  have hvalid : validNumber number = .ok number := by rw [validNumber, if_neg (by omega)]
  have hthreads : reviewThreads (g.api fromIsoformat casefold) repo number = .error .malformedResponse := by
    simp only [reviewThreads, hrepo, bind, Except.bind, threadsFrom_refused]
  simp only [getReviews, bind, Except.bind, hvalid, hrepo, hpages, hthreads]

/-- For no pull request, repository and number does the reader say exactly where the merge is
blocked. -/
theorem remote_blocking_never_exact (repo : Str) (number : ℤ) :
    ¬ BlocksExactly (g.api fromIsoformat casefold) g.pr repo number := by
  rintro ⟨snapshots, hok, -⟩
  have hread := hok
  simp only [getReviews, bind_eq_ok] at hread
  obtain ⟨n, hn, ⟨owner, name⟩, hrepo, -⟩ := hread
  have hnumber : 1 ≤ number := by
    unfold validNumber at hn
    split at hn
    · cases hn
    · omega
  rw [getReviews_malformed casefold g fromIsoformat repo owner name number hrepo hnumber] at hok
  cases hok

/-- A pull request with nothing on it. -/
def emptyPullRequest : PullRequest where
  reviews := []
  threads := []
  reviewCount := Nat.succ_pos _
  threadCount := Nat.succ_pos _
  reviewBodies := by simp
  comments := by simp
  times := by simp

def sampleGitHub : GitHub where
  pr := emptyPullRequest
  isoformat := fun _ => codes "2026-01-01T00:00:00Z"
  selected := fun _ _ => .obj [(codes "data", .null)]
  errors := [.obj [(codes "message", .str (codes "Expected NAME, actual: (none)"))]]

def sampleApi : Api := sampleGitHub.api (fun _ => some 1767225600000000) id

theorem empty_pull_request_unreadable :
    getReviews sampleApi (codes "owner/repo") 1 = .error .malformedResponse ∧
      ¬ BlocksExactly sampleApi emptyPullRequest (codes "owner/repo") 1 := by
  have hread : getReviews sampleApi (codes "owner/repo") 1 = .error .malformedResponse :=
    getReviews_malformed id sampleGitHub _ (codes "owner/repo") (codes "owner") (codes "repo") 1
      (by decide) (by decide)
  refine ⟨hread, ?_⟩
  rintro ⟨snapshots, hok, -⟩
  rw [hread] at hok
  cases hok

end ParallelForge.Release.Reviews
