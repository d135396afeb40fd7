import ParallelForge.Release.MergeOperation

/-!
# What the merge code sends

The writes of a conversation are its POST and PUT requests with their replies.
Everything before the merge request only reads; the merge request itself is
sent at most once, and its reply alone decides what is raised.
-/

namespace ParallelForge.Release
open Base Operation
open Value hiding none

abbrev Spoken := List (Exchange Ask Answer)

def sent : Exchange Ask Answer → Option (Request × Reply)
  | ⟨.http request, reply⟩ => if request.method.writes then some (request, reply) else none
  | _ => none

def writes (tr : Spoken) : List (Request × Reply) := tr.filterMap sent

@[simp] theorem writes_nil : writes [] = [] := rfl

@[simp] theorem writes_append (tr tr' : Spoken) : writes (tr ++ tr') = writes tr ++ writes tr' :=
  List.filterMap_append

/-- The exchange is no write. -/
def Silent (x : Exchange Ask Answer) : Prop := sent x = none

theorem writes_silent (tr : Spoken) (h : ∀ x ∈ tr, Silent x) : writes tr = [] := by
  rw [writes, List.filterMap_eq_nil_iff]
  exact h

def Anything (_ : Raised) : Prop := True

theorem raises_anything {α : Type} (x : Except Raised α) : Raises Anything x := fun _ _ => trivial

/-- What the adapter raises, as opposed to the controller and the read ports. -/
def FromAdapter : Raised → Prop
  | .write _ | .validation | .cancelled | .other => True
  | .client | .staleEvidence | .reconciliation => False

/-- It raises the one category. -/
abbrev RaisesWrite {α : Type} (category : Category) (x : Except Raised α) : Prop :=
  Raises (· = .write category) x

theorem raisesWrite_adapter {α : Type} (category : Category) (x : Except Raised α)
    (h : RaisesWrite category x) : Raises FromAdapter x := by
  refine raises_mono FromAdapter x h fun e he => ?_
  rw [he]
  trivial

theorem text_raises (v : Value) (category : Category) : RaisesWrite category (text v category) := by
  unfold text
  split
  · split
    · exact raises_error _ rfl
    · exact raises_ok _
  · exact raises_error _ rfl

theorem mapping_raises (v : Value) : RaisesWrite .malformedResponse (mapping v) := by
  unfold mapping
  split
  · exact raises_ok _
  · exact raises_error _ rfl

theorem repositoryOf_raises (v : Value) : RaisesWrite .invalidRequest (repositoryOf v) := by
  unfold repositoryOf
  split
  · simp only
    split
    · exact raises_ok _
    · exact raises_error _ rfl
  · exact raises_error _ rfl

theorem refOf_raises (v : Value) : RaisesWrite .invalidRequest (refOf v) := by
  unfold refOf
  split
  · split
    · exact raises_ok _
    · exact raises_error _ rfl
  · exact raises_error _ rfl

theorem number_raises (v : Value) (category : Category) :
    RaisesWrite category (number v category) := by
  unfold number
  split
  · split
    · exact raises_ok _
    · exact raises_error _ rfl
  · exact raises_error _ rfl

theorem sha_raises (v : Value) (category : Category) : RaisesWrite category (sha v category) := by
  refine raises_bind _ _ (text_raises v category) fun s => ?_
  exact raises_bind _ _ (raises_require _ _ rfl) fun _ => raises_ok s

theorem boolean_raises (v : Value) (category : Category) :
    RaisesWrite category (boolean v category) := by
  unfold boolean
  split
  · exact raises_ok _
  · exact raises_error _ rfl

theorem mergedFlag_raises (v : Value) : RaisesWrite .malformedResponse (mergedFlag v) :=
  raises_bind _ _ (mapping_raises _) fun _ => boolean_raises _ _

section adapter
variable (wire : Wire)

theorem url_raises (v : Value) (repository : String) (n : ℤ) :
    Raises FromAdapter (url wire v repository n) := by
  refine raises_bind _ _ (raisesWrite_adapter _ _ (text_raises _ _)) fun s => ?_
  refine raises_bind _ _ (raises_orRaise _ _ trivial) fun parsed => ?_
  exact raises_bind _ _ (raises_require _ _ trivial) fun _ => raises_ok s

theorem mergeShaOf_raises (v : Value) : Raises FromAdapter (mergeShaOf v) := by
  unfold mergeShaOf
  split
  · exact raises_ok _
  · exact raises_map _ _ (raisesWrite_adapter _ _ (sha_raises _ _))

theorem pullRequest_raises (v : Value) (repository : String) :
    Raises FromAdapter (pullRequest wire v repository) := by
  refine raises_bind _ _ (raisesWrite_adapter _ _ (mapping_raises _)) fun data => ?_
  refine raises_bind _ _ (raisesWrite_adapter _ _ (number_raises _ _)) fun n => ?_
  refine raises_bind _ _ (raisesWrite_adapter _ _ (mapping_raises _)) fun head => ?_
  refine raises_bind _ _ (raisesWrite_adapter _ _ (mapping_raises _)) fun base => ?_
  refine raises_bind _ _ (raisesWrite_adapter _ _ (mapping_raises _)) fun headRepo => ?_
  refine raises_bind _ _ (raisesWrite_adapter _ _ (repositoryOf_raises _)) fun headRepository => ?_
  refine raises_bind _ _ (raisesWrite_adapter _ _ (mapping_raises _)) fun baseRepo => ?_
  refine raises_bind _ _ (raisesWrite_adapter _ _ (repositoryOf_raises _)) fun baseRepository => ?_
  refine raises_bind _ _ (raises_require _ _ trivial) fun _ => ?_
  refine raises_bind _ _ (raisesWrite_adapter _ _ (boolean_raises _ _)) fun merged => ?_
  refine raises_bind _ _ (mergeShaOf_raises _) fun mergeSha => ?_
  refine raises_bind _ _ (raises_require _ _ trivial) fun _ => ?_
  refine raises_bind _ _ (raisesWrite_adapter _ _ (text_raises _ _)) fun nodeId => ?_
  refine raises_bind _ _ (url_raises wire _ _ _) fun address => ?_
  refine raises_bind _ _ (raisesWrite_adapter _ _ (refOf_raises _)) fun headRef => ?_
  refine raises_bind _ _ (raisesWrite_adapter _ _ (sha_raises _ _)) fun headSha => ?_
  refine raises_bind _ _ (raisesWrite_adapter _ _ (refOf_raises _)) fun baseRef => ?_
  refine raises_bind _ _ (raisesWrite_adapter _ _ (sha_raises _ _)) fun baseSha => ?_
  exact raises_bind _ _ (raisesWrite_adapter _ _ (text_raises _ _)) fun state => raises_ok _

theorem escape_raises (e : Escape) : FromAdapter e.raised := by
  cases e with
  | cancelled => trivial
  | other => trivial

theorem receive_raises (method : Method) (path : List String) (entry : Option CacheEntry)
    (reply : Reply) : Raises FromAdapter (receive method path entry reply) := by
  cases reply with
  | failed => exact raises_error _ trivial
  | escaped e => exact raises_error _ (escape_raises e)
  | tooLarge => exact raises_error _ trivial
  | answer status isRedirect etag body =>
    simp only [receive]
    split
    · split
      · exact raises_error _ trivial
      · exact raises_ok _
    · split
      · exact raises_error _ trivial
      · split
        · exact raises_ok _
        · exact raises_error _ trivial
        · exact raises_error _ trivial

theorem runs_resolve_bind {α : Type} (f : Resolution → Client α) (c c' : Cache) (tr : Spoken)
    (r : Except Raised α) : Talking.Runs (resolve >>= f) c tr r c' ↔
      ∃ (x : Resolution) (rest : Spoken), tr = ⟨.credential, x⟩ :: rest ∧
        Talking.Runs (f x) c rest r c' :=
  Talking.runs_ask_bind c c' tr r Ask.credential f

theorem runs_send_bind {α : Type} (request : Request) (f : Reply → Client α) (c c' : Cache)
    (tr : Spoken) (r : Except Raised α) : Talking.Runs (send request >>= f) c tr r c' ↔
      ∃ (x : Reply) (rest : Spoken), tr = ⟨.http request, x⟩ :: rest ∧
        Talking.Runs (f x) c rest r c' :=
  Talking.runs_ask_bind c c' tr r (Ask.http request) f

theorem resolveToken_within : Talking.Within Silent FromAdapter resolveToken := by
  refine Talking.within_bind _ _ (Talking.within_ask _ fun x => rfl) fun answer => ?_
  change Resolution at answer
  cases answer with
  | value v => exact Talking.within_lift _ (raises_orRaise _ _ trivial)
  | refused => exact Talking.within_raise _ trivial
  | escaped e => exact Talking.within_raise _ (escape_raises e)

/- The resolver does not touch the cache, and its own failures are no rejection. -/
theorem resolveToken_runs (c c' : Cache) (tr : Spoken) (r : Except Raised String)
    (h : Talking.Runs resolveToken c tr r c') :
    c' = c ∧ ∀ category, r = .error (.write category) → category = .credential := by
  obtain ⟨x, rest, -, hx⟩ := (runs_resolve_bind _ _ _ _ _).mp h
  cases x with
  | value v =>
    obtain ⟨-, rfl, rfl⟩ := (Talking.runs_lift _ _).mp hx
    refine ⟨rfl, fun category hc => ?_⟩
    cases ht : tokenOf v with
    | none =>
      rw [ht] at hc
      cases hc
      rfl
    | some token =>
      rw [ht] at hc
      cases hc
  | refused =>
    obtain ⟨-, rfl, rfl⟩ := (Talking.runs_raise _ _).mp hx
    refine ⟨rfl, fun category hc => ?_⟩
    cases hc
    rfl
  | escaped e =>
    obtain ⟨-, rfl, rfl⟩ := (Talking.runs_raise _ _).mp hx
    refine ⟨rfl, fun category hc => ?_⟩
    cases e with
    | cancelled => cases hc
    | other => cases hc

/-- What is cached for a path is only ever sent with a GET of it. -/
def Kept (c : Cache) (path : List String) (e : CacheEntry) : Prop :=
  ∃ key, (key, e) ∈ c ∧ key.path = path

theorem cached_kept (c : Cache) (key : CacheKey) (e : CacheEntry) (h : cached c key = some e) :
    Kept c key.path e := by
  rw [cached, Option.map_eq_some_iff] at h
  obtain ⟨p, hp, rfl⟩ := h
  have hkey := List.find?_some hp
  rw [decide_eq_true_iff] at hkey
  exact ⟨p.1, List.mem_of_find?_eq_some hp, by rw [hkey]⟩

/- A request ends before it is sent, or is one exchange after the credential. -/
theorem json_runs (method : Method) (path : List String) (payload : Option Value) (c c' : Cache)
    (tr : Spoken) (r : Except Raised Value)
    (h : Talking.Runs (json wire method path payload) c tr r c') :
    (∃ e, r = .error e ∧ Talking.Runs resolveToken c tr (.error e) c') ∨
    ∃ tr₁ token entry reply, (∀ x ∈ tr₁, Silent x) ∧
      tr = tr₁ ++ [⟨.http ⟨method, path, token, entry.map CacheEntry.etag, payload⟩, reply⟩] ∧
      r = receive method path entry reply ∧
      (∀ e, entry = some e → method = .get ∧ Kept c path e) ∧ (method ≠ .get → c' = []) := by
  rcases (Talking.runs_bind _ _ r).mp h with ⟨e, hp, rfl⟩ | ⟨token, c₁, tr₁, tr₂, hp, hrest, rfl⟩
  · exact .inl ⟨e, rfl, hp⟩
  obtain ⟨rfl, -⟩ := resolveToken_runs _ _ _ _ hp
  have hsilent : ∀ x ∈ tr₁, Silent x := (resolveToken_within c₁ tr₁ _ c₁ hp).1
  have hentry : ∀ e, (if method = .get then cached c₁ ⟨wire.sha256 token, path⟩ else none) = some e →
      method = .get ∧ Kept c₁ path e := by
    intro e he
    by_cases hm : method = .get
    · rw [if_pos hm] at he
      exact ⟨hm, cached_kept c₁ _ e he⟩
    · rw [if_neg hm] at he
      cases he
  refine .inr ⟨tr₁, token, if method = .get then cached c₁ ⟨wire.sha256 token, path⟩ else none, ?_⟩
  simp only [Talking.runs_get_bind, Talking.runs_modify_bind, runs_send_bind,
    Talking.runs_lift_bind, Talking.runs_pure] at hrest
  obtain ⟨reply, rest, rfl, hrest⟩ := hrest
  refine ⟨reply, hsilent, ?_⟩
  rcases hrest with ⟨e, he, rfl, rfl, rfl⟩ | ⟨v, hv, rfl, rfl, rfl⟩
  · exact ⟨rfl, he.symm, hentry, fun hm => if_neg hm⟩
  · refine ⟨rfl, hv.symm, hentry, fun hm => ?_⟩
    rw [if_neg hm, if_neg hm]

theorem json_get_within (path : List String) (payload : Option Value) :
    Talking.Within Silent FromAdapter (json wire .get path payload) := by
  intro c tr r c' h
  rcases json_runs wire _ _ _ _ _ _ _ h with ⟨e, rfl, he⟩ | ⟨tr₁, token, entry, reply, hs, rfl, rfl, -⟩
  · have hw := resolveToken_within _ _ _ _ he
    exact ⟨hw.1, raises_error e (hw.2 e rfl)⟩
  · refine ⟨fun x hx => ?_, receive_raises _ _ _ _⟩
    rcases List.mem_append.mp hx with hx | hx
    · exact hs x hx
    · rw [List.mem_singleton] at hx
      rw [hx]
      rfl

/- A POST or PUT: nothing was sent, or this request alone. -/
theorem json_write_runs (method : Method) (hm : method.writes = true) (path : List String)
    (payload : Option Value) (c c' : Cache) (tr : Spoken) (r : Except Raised Value)
    (h : Talking.Runs (json wire method path payload) c tr r c') :
    (writes tr = [] ∧ ∃ e, r = .error e ∧ FromAdapter e ∧
      ∀ category, e = .write category → category = .credential) ∨
    ∃ token reply, writes tr = [(⟨method, path, token, none, payload⟩, reply)] ∧
      r = receive method path none reply ∧ c' = [] := by
  have hget : method ≠ .get := by
    rintro rfl
    cases hm
  rcases json_runs wire _ _ _ _ _ _ _ h with
    ⟨e, rfl, he⟩ | ⟨tr₁, token, entry, reply, hs, rfl, rfl, hentry, hc⟩
  · have hw := resolveToken_within _ _ _ _ he
    refine .inl ⟨writes_silent tr hw.1, e, rfl, hw.2 e rfl, fun category hcat => ?_⟩
    exact (resolveToken_runs _ _ _ _ he).2 category (by rw [hcat])
  · have hnone : entry = none := by
      cases entry with
      | none => rfl
      | some e => exact absurd (hentry e rfl).1 hget
    subst hnone
    refine .inr ⟨token, reply, ?_, rfl, hc hget⟩
    rw [writes_append, writes_silent tr₁ hs, List.nil_append, writes, List.filterMap_cons]
    simp only [sent, hm, ite_true, List.filterMap_nil]
    rfl

theorem refusal_none (method : Method) (path : List String) (status : ℕ) (isRedirect : Bool)
    (h : refusal method path status isRedirect = none) : isRedirect = false ∧ status < 400 := by
  unfold refusal at h
  split at h
  · cases h
  · rename_i hr
    refine ⟨Bool.eq_false_iff.mpr hr, ?_⟩
    by_contra hs
    have hs : 400 ≤ status := Nat.le_of_not_lt hs
    simp only [hs, ite_true] at h
    repeat' split at h
    all_goals cases h

/- A value is the body of an accepted response, or what was kept for a 304. -/
theorem receive_ok (method : Method) (path : List String) (entry : Option CacheEntry)
    (reply : Reply) (v : Value) (h : receive method path entry reply = .ok v) :
    (∃ status etag, reply = .answer status false etag (.json v) ∧ status ≠ 304 ∧ status < 400) ∨
    ∃ e isRedirect etag body, entry = some e ∧ e.body = v ∧
      reply = .answer 304 isRedirect etag body := by
  cases reply with
  | failed => cases h
  | escaped e => cases h
  | tooLarge => cases h
  | answer status isRedirect etag body =>
    simp only [receive] at h
    by_cases hs : status = 304
    · subst hs
      rw [if_pos rfl] at h
      cases entry with
      | none => cases h
      | some e =>
        cases h
        exact .inr ⟨e, isRedirect, etag, body, rfl, rfl, rfl⟩
    · rw [if_neg hs] at h
      cases hr : refusal method path status isRedirect with
      | some category =>
        rw [hr] at h
        cases h
      | none =>
        obtain ⟨rfl, hlt⟩ := refusal_none _ _ _ _ hr
        rw [hr] at h
        cases body with
        | json w =>
          cases h
          exact .inl ⟨status, etag, rfl, hs, hlt⟩
        | malformed => cases h
        | unreadable => cases h

/-- A response of GitHub to a GET of the path, with this body. -/
def Answered (path : List String) (v : Value) (x : Exchange Ask Answer) : Prop :=
  ∃ request status etag, x = ⟨.http request, Reply.answer status false etag (.json v)⟩ ∧
    request.method = .get ∧ request.path = path ∧ status ≠ 304 ∧ status < 400

/-- GitHub has confirmed that the path is as it was. -/
def NotModified (path : List String) (x : Exchange Ask Answer) : Prop :=
  ∃ request isRedirect etag body, x = ⟨.http request, Reply.answer 304 isRedirect etag body⟩ ∧
    request.method = .get ∧ request.path = path

/-- GitHub showed this body: in the conversation, or before it and then it was
confirmed in the conversation. -/
def Shown (c : Cache) (path : List String) (v : Value) (tr : Spoken) : Prop :=
  (∃ x ∈ tr, Answered path v x) ∨
    (∃ e, Kept c path e ∧ e.body = v) ∧ ∃ x ∈ tr, NotModified path x

theorem json_get_shown (path : List String) (payload : Option Value) (c c' : Cache) (tr : Spoken)
    (v : Value) (h : Talking.Runs (json wire .get path payload) c tr (.ok v) c') :
    Shown c path v tr := by
  rcases json_runs wire _ _ _ _ _ _ _ h with
    ⟨e, he, -⟩ | ⟨tr₁, token, entry, reply, -, rfl, hr, hentry, -⟩
  · cases he
  · rcases receive_ok _ _ _ _ _ hr.symm with
      ⟨status, etag, rfl, hs, hlt⟩ | ⟨e, isRedirect, etag, body, rfl, hv, rfl⟩
    · exact .inl ⟨_, List.mem_append_right _ (List.mem_singleton_self _), _, status, etag, rfl, rfl,
        rfl, hs, hlt⟩
    · exact .inr ⟨⟨e, (hentry e rfl).2, hv⟩, _, List.mem_append_right _ (List.mem_singleton_self _),
        _, isRedirect, etag, body, rfl, rfl, rfl⟩

/- With nothing cached it was shown in the conversation. -/
theorem shown_fresh (path : List String) (v : Value) (tr : Spoken) (h : Shown [] path v tr) :
    ∃ x ∈ tr, Answered path v x := by
  rcases h with h | ⟨⟨e, ⟨key, hk, -⟩, -⟩, -⟩
  · exact h
  · cases hk

theorem repositoryOf_str (s t : String) (h : repositoryOf (.str s) = .ok t) : t = s := by
  simp only [repositoryOf] at h
  split at h
  · cases h
    rfl
  · cases h

theorem number_int (z w : ℤ) (category : Category) (h : number (.int z) category = .ok w) :
    w = z := by
  simp only [number] at h
  split at h
  · cases h
    rfl
  · cases h

theorem sha_str (s t : String) (category : Category) (h : sha (.str s) category = .ok t) :
    t = s := by
  simp only [sha, bind_eq_ok, require_eq_ok] at h
  obtain ⟨u, hu, -, -, hout⟩ := h
  cases hout
  simp only [text] at hu
  split at hu
  · cases hu
  · cases hu
    rfl

theorem getPullRequest_within (repository : String) (n : ℤ) :
    Talking.Within Silent FromAdapter (getPullRequest wire repository n) := by
  refine Talking.within_bind _ _ (Talking.within_lift _ (raisesWrite_adapter _ _ (repositoryOf_raises _))) fun name => ?_
  refine Talking.within_bind _ _ (Talking.within_lift _ (raisesWrite_adapter _ _ (number_raises _ _))) fun m => ?_
  refine Talking.within_bind _ _ (json_get_within wire _ _) fun data => ?_
  refine Talking.within_bind _ _ (Talking.within_lift _ (pullRequest_raises wire _ _)) fun pull => ?_
  refine Talking.within_bind _ _ (Talking.within_lift _ (raises_require _ _ trivial)) fun _ => ?_
  exact Talking.within_pure pull

theorem getBranchSha_within (repository ref : String) :
    Talking.Within Silent FromAdapter (getBranchSha wire repository ref) := by
  refine Talking.within_bind _ _ (Talking.within_lift _ (raisesWrite_adapter _ _ (repositoryOf_raises _))) fun name => ?_
  refine Talking.within_bind _ _ (Talking.within_lift _ (raisesWrite_adapter _ _ (refOf_raises _))) fun branch => ?_
  refine Talking.within_bind _ _ (json_get_within wire _ _) fun value => ?_
  refine Talking.within_bind _ _ (Talking.within_lift _ (raisesWrite_adapter _ _ (mapping_raises _))) fun data => ?_
  refine Talking.within_bind _ _ (Talking.within_lift _ (raisesWrite_adapter _ _ (mapping_raises _))) fun object => ?_
  exact Talking.within_lift _ (raisesWrite_adapter _ _ (sha_raises _ _))

theorem getPullRequest_ok (repository : String) (n : ℤ) (c c' : Cache) (tr : Spoken)
    (pull : GitHubPullRequest)
    (h : Talking.Runs (getPullRequest wire repository n) c tr (.ok pull) c') :
    ∃ v, pullRequest wire v repository = .ok pull ∧ Shown c (pullPath repository n) v tr := by
  simp only [getPullRequest, Talking.runs_bind_ok, Talking.runs_lift] at h
  obtain ⟨name, c₁, tr₁, tr₂, ⟨rfl, hname, rfl⟩, h, rfl⟩ := h
  obtain ⟨m, c₂, tr₃, tr₄, ⟨rfl, hm, rfl⟩, h, rfl⟩ := h
  obtain ⟨v, c₃, tr₅, tr₆, hjson, h, rfl⟩ := h
  obtain ⟨pull', c₄, tr₇, tr₈, ⟨rfl, hpull, rfl⟩, h, rfl⟩ := h
  obtain ⟨_, c₅, tr₉, tr₀, ⟨rfl, -, rfl⟩, h, rfl⟩ := h
  simp only [Talking.runs_pure, Except.ok.injEq] at h
  obtain ⟨rfl, rfl, rfl⟩ := h
  obtain rfl := repositoryOf_str _ _ hname.symm
  obtain rfl := number_int _ _ _ hm.symm
  refine ⟨v, hpull.symm, ?_⟩
  simpa using json_get_shown wire _ _ _ _ _ _ hjson

theorem readAfterWrite_within (repository : String) (n : ℤ) :
    Talking.Within Silent (fun e => FromAdapter e ∧ ∀ category, e = .write category →
      category = .uncertain) (readAfterWrite wire repository n) := by
  refine Talking.within_tryElse _ _ _ FromAdapter (getPullRequest_within wire repository n) ?_ ?_
    fun pull => Talking.within_pure pull
  · intro e he hpass
    cases e with
    | write category => cases hpass
    | client => cases he
    | staleEvidence => cases he
    | reconciliation => cases he
    | validation => exact ⟨trivial, fun _ h => by cases h⟩
    | cancelled => exact ⟨trivial, fun _ h => by cases h⟩
    | other => exact ⟨trivial, fun _ h => by cases h⟩
  · intro e q hq
    cases e with
    | write category =>
      cases hq
      refine Talking.within_raise _ ⟨trivial, fun _ h => ?_⟩
      cases h
      rfl
    | client => cases hq
    | staleEvidence => cases hq
    | reconciliation => cases hq
    | validation => cases hq
    | cancelled => cases hq
    | other => cases hq

theorem readAfterWrite_ok (repository : String) (n : ℤ) (c c' : Cache) (tr : Spoken)
    (pull : GitHubPullRequest)
    (h : Talking.Runs (readAfterWrite wire repository n) c tr (.ok pull) c') :
    Talking.Runs (getPullRequest wire repository n) c tr (.ok pull) c' := by
  rcases (Talking.runs_tryElse _ _ _ _).mp h with
    ⟨e, -, -, he⟩ | ⟨e, q, c₁, tr₁, tr₂, -, hq, h₂, -⟩ | ⟨a, c₁, tr₁, tr₂, h₁, h₂, rfl⟩
  · cases he
  · cases e with
    | write category =>
      cases hq
      simp at h₂
    | client => cases hq
    | staleEvidence => cases hq
    | reconciliation => cases hq
    | validation => cases hq
    | cancelled => cases hq
    | other => cases hq
  · simp only [Talking.runs_pure, Except.ok.injEq] at h₂
    obtain ⟨rfl, rfl, rfl⟩ := h₂
    simpa using h₁

/-- The merge request of one approved head. -/
def mergeRequest (repository : String) (n : ℤ) (headSha mergeMethod token : String) : Request where
  method := .put
  path := pullPath repository n ++ ["merge"]
  token := token
  ifNoneMatch := none
  json := some (.dict [("sha", .str headSha), ("merge_method", .str mergeMethod)])

/-- HTTP 400, 405, 409 or 422, or a response that says `merged` is false. -/
def MergeRefused (reply : Reply) : Prop :=
  ∃ status etag body, reply = .answer status false etag body ∧
    (status ∈ [400, 405, 409, 422] ∨
      status < 400 ∧ ∃ d, body = .json (.dict d) ∧ get d "merged" = .bool false)

/-- A response that says `merged` is true. -/
def MergeAcknowledged (reply : Reply) : Prop :=
  ∃ status etag d, reply = .answer status false etag (.json (.dict d)) ∧ status < 400 ∧
    get d "merged" = .bool true

theorem refusal_definite (path : List String) (status : ℕ) (isRedirect : Bool) (category : Category)
    (h : refusal .put path status isRedirect = some category) (hd : definite category = true) :
    isRedirect = false ∧ status ∈ [400, 405, 409, 422] := by
  unfold refusal at h
  repeat' split at h
  all_goals cases h
  all_goals first
    | exact absurd hd (by decide)
    | (refine ⟨Bool.eq_false_iff.mpr (by assumption), ?_⟩
       simp_all)

theorem receive_definite (path : List String) (reply : Reply) (category : Category)
    (h : receive .put path none reply = .error (.write category)) (hd : definite category = true) :
    MergeRefused reply := by
  cases reply with
  | failed =>
    cases h
    exact absurd hd (by decide)
  | escaped e =>
    cases e with
    | cancelled => cases h
    | other => cases h
  | tooLarge =>
    cases h
    exact absurd hd (by decide)
  | answer status isRedirect etag body =>
    simp only [receive] at h
    split at h
    · cases h
      exact absurd hd (by decide)
    · cases hr : refusal .put path status isRedirect with
      | some c =>
        rw [hr] at h
        cases h
        obtain ⟨rfl, hs⟩ := refusal_definite _ _ _ _ hr hd
        exact ⟨status, etag, body, rfl, .inl hs⟩
      | none =>
        rw [hr] at h
        cases body with
        | json v => cases h
        | malformed =>
          cases h
          exact absurd hd (by decide)
        | unreadable => cases h

theorem mergedFlag_ok (v : Value) (b : Bool) (h : mergedFlag v = .ok b) :
    ∃ d, v = .dict d ∧ get d "merged" = .bool b := by
  simp only [mergedFlag, bind_eq_ok] at h
  obtain ⟨d, hd, hb⟩ := h
  unfold mapping at hd
  split at hd
  · cases hd
    unfold boolean at hb
    split at hb
    · rename_i hg
      cases hb
      exact ⟨_, rfl, hg⟩
    · cases hb
  · cases hd

theorem definite_false (category wanted : Category) (h : definite wanted = false)
    (hc : Raised.write wanted = .write category) : definite category = false := by
  cases hc
  exact h

/- The arguments were refused before anything was sent. -/
theorem refused_unsent {P : Prop} {e : Raised} (r : Except Raised GitHubPullRequest)
    (wanted : Category) (hw : definite wanted = false) (he : e = .write wanted)
    (hr : r = .error e := by rfl) :
    Raises FromAdapter r ∧ ((writes [] = [] ∧ ∃ e, r = .error e ∧ ∀ category, e = .write category →
      definite category = false) ∨ P) := by
  subst hr he
  exact ⟨raises_error _ trivial, .inl ⟨rfl, _, rfl, fun category => definite_false category wanted hw⟩⟩

/- What follows the merge request: the reply's body is read, then the pull request. -/
theorem afterMerge_runs (repository : String) (n : ℤ) (v : Value) (c' : Cache) (tr : Spoken)
    (r : Except Raised GitHubPullRequest)
    (h : Talking.Runs (do
      let merged ← Talking.lift (mergedFlag v)
      Talking.lift (require (merged = true) (.write .stale))
      readAfterWrite wire repository n) [] tr r c') :
    Raises FromAdapter r ∧ writes tr = [] ∧
    (∀ category, r = .error (.write category) → definite category = true →
      ∃ d, v = .dict d ∧ get d "merged" = .bool false) ∧
    ∀ pull, r = .ok pull → (∃ d, v = .dict d ∧ get d "merged" = .bool true) ∧
      ∃ w, pullRequest wire w repository = .ok pull ∧
        ∃ x ∈ tr, Answered (pullPath repository n) w x := by
  rw [Talking.runs_lift_bind] at h
  rcases h with ⟨e, he, rfl, rfl, -⟩ | ⟨merged, hmerged, h⟩
  · obtain rfl := mergedFlag_raises v e he
    refine ⟨raises_error _ trivial, rfl, fun category hcat hd => ?_, by rintro pull ⟨⟩⟩
    cases hcat
    cases hd
  obtain ⟨d, rfl, hd⟩ := mergedFlag_ok v merged hmerged
  rw [Talking.runs_lift_bind] at h
  rcases h with ⟨e, he, rfl, rfl, -⟩ | ⟨_, hm, h⟩
  · cases merged with
    | true => cases he
    | false =>
      cases he
      exact ⟨raises_error _ trivial, rfl, fun _ _ _ => ⟨d, rfl, hd⟩, by rintro pull ⟨⟩⟩
  obtain rfl := (require_eq_ok _ _ _).mp hm
  have hwithin := readAfterWrite_within wire repository n [] tr r c' h
  refine ⟨fun e he => (hwithin.2 e he).1, writes_silent tr hwithin.1, fun category hcat hdef => ?_,
    fun pull hp => ⟨⟨d, rfl, hd⟩, ?_⟩⟩
  · rw [(hwithin.2 _ hcat).2 category rfl] at hdef
    cases hdef
  · subst hp
    obtain ⟨w, hw, hshown⟩ := getPullRequest_ok wire _ _ _ _ _ _ (readAfterWrite_ok wire _ _ _ _ _ _ h)
    exact ⟨w, hw, shown_fresh _ _ _ hshown⟩

/-- The merge: nothing is sent, or the one request; then the pull request is
read again. -/
theorem mergePullRequest_runs (repository : String) (n : ℤ) (headSha mergeMethod : String)
    (c c' : Cache) (tr : Spoken) (r : Except Raised GitHubPullRequest)
    (h : Talking.Runs (mergePullRequest wire repository n headSha mergeMethod) c tr r c') :
    Raises FromAdapter r ∧
    ((writes tr = [] ∧ ∃ e, r = .error e ∧ ∀ category, e = .write category →
        definite category = false) ∨
      ∃ tr₁ tr₂ token reply, tr = tr₁ ++ tr₂ ∧
        writes tr₁ = [(mergeRequest repository n headSha mergeMethod token, reply)] ∧
        writes tr₂ = [] ∧
        (∀ category, r = .error (.write category) → definite category = true →
          MergeRefused reply) ∧
        ∀ pull, r = .ok pull → MergeAcknowledged reply ∧
          ∃ v, pullRequest wire v repository = .ok pull ∧
            ∃ x ∈ tr₂, Answered (pullPath repository n) v x) := by
  simp only [mergePullRequest] at h
  rw [Talking.runs_lift_bind] at h
  rcases h with ⟨e, he, rfl, rfl, -⟩ | ⟨name, hname, h⟩
  · exact refused_unsent _ .invalidRequest rfl (repositoryOf_raises _ e he)
  rw [Talking.runs_lift_bind] at h
  rcases h with ⟨e, he, rfl, rfl, -⟩ | ⟨_, -, h⟩
  · exact refused_unsent _ .invalidRequest rfl (raises_require _ _ rfl e he).symm
  rw [Talking.runs_lift_bind] at h
  rcases h with ⟨e, he, rfl, rfl, -⟩ | ⟨m, hm, h⟩
  · exact refused_unsent _ .invalidRequest rfl (number_raises _ _ e he)
  rw [Talking.runs_lift_bind] at h
  rcases h with ⟨e, he, rfl, rfl, -⟩ | ⟨head, hhead, h⟩
  · exact refused_unsent _ .invalidRequest rfl (sha_raises _ _ e he)
  obtain rfl := repositoryOf_str _ _ hname
  obtain rfl := number_int _ _ _ hm
  obtain rfl := sha_str _ _ _ hhead
  rcases (Talking.runs_bind _ _ r).mp h with ⟨e, hput, rfl⟩ | ⟨v, c₁, tr₁, tr₂, hput, h, rfl⟩
  · rcases json_write_runs wire _ rfl _ _ _ _ _ _ hput with
      ⟨hw, e', he', ha, hc⟩ | ⟨token, reply, hw, he, -⟩
    · cases he'
      refine ⟨raises_error e ha, .inl ⟨hw, e, rfl, fun category hcat => ?_⟩⟩
      rw [hc category hcat]
      rfl
    · refine ⟨raises_error e (receive_raises _ _ _ _ e he.symm), .inr
        ⟨tr, [], token, reply, (List.append_nil tr).symm, hw, rfl, fun category hcat hd => ?_, ?_⟩⟩
      · cases hcat
        exact receive_definite _ _ _ he.symm hd
      · rintro pull ⟨⟩
  · rcases json_write_runs wire _ rfl _ _ _ _ _ _ hput with
      ⟨-, e', he', -⟩ | ⟨token, reply, hw, hv, rfl⟩
    · cases he'
    rcases receive_ok _ _ _ _ _ hv.symm with
      ⟨status, etag, rfl, hs, hlt⟩ | ⟨e, isRedirect, etag, body, hnone, -⟩
    swap
    · cases hnone
    obtain ⟨hr, htr, hdef, hok⟩ := afterMerge_runs wire _ _ _ _ _ _ h
    refine ⟨hr, .inr ⟨tr₁, tr₂, token, _, rfl, hw, htr, fun category hcat hd => ?_, fun pull hp => ?_⟩⟩
    · obtain ⟨d, rfl, hd'⟩ := hdef category hcat hd
      exact ⟨status, etag, _, rfl, .inr ⟨hlt, d, rfl, hd'⟩⟩
    · obtain ⟨⟨d, rfl, hd⟩, hrest⟩ := hok pull hp
      exact ⟨⟨status, etag, d, rfl, hlt, hd⟩, hrest⟩

end adapter

end ParallelForge.Release
