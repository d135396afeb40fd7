import ParallelForge.Agents.StrictJson
import ParallelForge.Base.Uuid
import ParallelForge.Epic.GraphLaw
import ParallelForge.Operation.CanonicalPayload

/-!
# Epic snapshots (`domain/epic_items.py:149-240`)

A snapshot lists the items by ordinal and id, each with its id lists sorted,
and its digest is that of the listing. As ids are unique and their texts
distinct, the order in which items and ids were given leaves no trace.
-/

namespace ParallelForge.Epic
open Base Operation

/-- `sorted(ids, key=str)`. -/
def sortIds (ids : List UUID) : List UUID :=
  ids.insertionSort fun a b => uuidText a ≤ uuidText b

/-- `sorted(str(value) for value in ids)`. -/
def sortedTexts (ids : List UUID) : List Str := (ids.map uuidText).insertionSort (· ≤ ·)

/-- The key order `(item.ordinal, str(item.item_id))`. -/
def itemLe (a b : ItemInput) : Prop :=
  a.ordinal < b.ordinal ∨ (a.ordinal = b.ordinal ∧ uuidText a.itemId ≤ uuidText b.itemId)

instance : DecidableRel itemLe := fun a b => inferInstanceAs
  (Decidable (a.ordinal < b.ordinal ∨ (a.ordinal = b.ordinal ∧ uuidText a.itemId ≤ uuidText b.itemId)))

structure ItemSnapshot extends ItemInput where
  graphRevisionId : UUID
  itemDigest : Str

inductive SnapshotError
  | graph (error : GraphValidationError)
  | value (message : String)

def texts (l : List Str) : PyValue := .list (l.map .str)

def keyed (key : String) (value : PyValue) : PyKey × PyValue := (.str (codes key), value)

/-- `_item_payload`. -/
def itemPayload (item : ItemInput) : PyValue :=
  .mapping [keyed "schema_version" (.int 1), keyed "item_id" (.str (uuidText item.itemId)),
    keyed "disposition" (.str (codes item.disposition.value)), keyed "ordinal" (.int item.ordinal),
    keyed "title" (.str item.title), keyed "outcome" (.str item.outcome),
    keyed "acceptance_criteria" (texts item.acceptanceCriteria),
    keyed "source_requirement_ids" (texts (sortedTexts item.sourceRequirementIds)),
    keyed "dependency_item_ids" (texts (sortedTexts item.dependencyItemIds))]

/-- `model_dump(mode="json")`. -/
def ItemSnapshot.dump (item : ItemSnapshot) : PyValue :=
  .mapping [keyed "item_id" (.str (uuidText item.itemId)),
    keyed "disposition" (.str (codes item.disposition.value)), keyed "ordinal" (.int item.ordinal),
    keyed "title" (.str item.title), keyed "outcome" (.str item.outcome),
    keyed "acceptance_criteria" (texts item.acceptanceCriteria),
    keyed "source_requirement_ids" (texts (item.sourceRequirementIds.map uuidText)),
    keyed "dependency_item_ids" (texts (item.dependencyItemIds.map uuidText)),
    keyed "graph_revision_id" (.str (uuidText item.graphRevisionId)),
    keyed "item_digest" (.str item.itemDigest)]

theorem sortIds_perm (ids : List UUID) : (sortIds ids).Perm ids := List.perm_insertionSort _ ids

/-- The item with its id lists sorted. -/
def ItemInput.sorted (item : ItemInput) : ItemInput :=
  { item with
    sourceRequirementIds := sortIds item.sourceRequirementIds
    dependencyItemIds := sortIds item.dependencyItemIds
    sourceCount := (sortIds_perm item.sourceRequirementIds).length_eq.symm ▸ item.sourceCount
    dependencyCount := (sortIds_perm item.dependencyItemIds).length_eq.symm ▸ item.dependencyCount
    sourceUnique := (sortIds_perm item.sourceRequirementIds).nodup_iff.mpr item.sourceUnique
    dependencyUnique := (sortIds_perm item.dependencyItemIds).nodup_iff.mpr item.dependencyUnique }

section snapshot
variable (isAlnum : ℕ → Bool) (sha256 : Str → Str)

/-- `canonical_digest`. -/
def canonicalDigest (value : PyValue) : Except SnapshotError Str :=
  ((canonicalPayload isAlnum value).map sha256).mapError .value

/-- One turn of the comprehension; of the validators only the digest's sees anything new. -/
def snapshotOf (graphRevisionId : UUID) (item : ItemInput) : Except SnapshotError ItemSnapshot := do
  let digest ← canonicalDigest isAlnum sha256 (itemPayload item)
  require (digest.length = 64 ∧ ∀ c ∈ digest, (48 ≤ c ∧ c ≤ 57) ∨ (97 ≤ c ∧ c ≤ 102))
    (.value "graph digest is invalid")
  return ⟨item.sorted, graphRevisionId, digest⟩

/-- `len(json.dumps(content, sort_keys=True, ensure_ascii=False, ...).encode("utf-8"))`. -/
def contentSize (content : PyValue) : Except SnapshotError ℕ := do
  let thawed ← orRaise (thawPayload content) (.value "Object is not JSON serializable")
  require (thawed.every (fun u => Json.printable u) = true)
    (.value "Exceeds the limit (4300 digits) for integer string conversion")
  orRaise (Agents.utf8Length (Json.render false (Json.sortKeys thawed)))
    (.value "surrogates not allowed")

def contentOf (briefRevisionId : UUID) (briefDigest : Str) (snapshots : List ItemSnapshot) :
    PyValue :=
  .mapping [keyed "schema_version" (.int 1),
    keyed "brief_revision_id" (.str (uuidText briefRevisionId)),
    keyed "brief_digest" (.str briefDigest), keyed "items" (.list (snapshots.map ItemSnapshot.dump))]

/-- What follows the validation. -/
def assemble (graphRevisionId : UUID) (items : List ItemInput) (briefRevisionId : UUID)
    (briefDigest : Str) : Except SnapshotError (List ItemSnapshot × Str) := do
  let snapshots ← (items.insertionSort itemLe).mapM (snapshotOf isAlnum sha256 graphRevisionId)
  let content := contentOf briefRevisionId briefDigest snapshots
  (validateDurablePayload isAlnum content).mapError .value
  let size ← contentSize content
  require (size ≤ 262144) (.graph ⟨"graph snapshot is too large"⟩)
  let digest ← canonicalDigest isAlnum sha256 content
  return (snapshots, digest)

/-- `make_snapshot`. -/
def makeSnapshot (graphRevisionId : UUID) (items : List ItemInput) (briefRevisionId : UUID)
    (briefDigest : Str) : Prog (Except SnapshotError (List ItemSnapshot × Str)) := do
  match ← validateGraph items false with
  | .error e => pure (.error (.graph e))
  | .ok () => pure (assemble isAlnum sha256 graphRevisionId items briefRevisionId briefDigest)

end snapshot

/-! ## Other orders -/

/-- The same item with its id lists in another order. -/
structure Reordered (a b : ItemInput) : Prop where
  itemId : a.itemId = b.itemId
  disposition : a.disposition = b.disposition
  ordinal : a.ordinal = b.ordinal
  title : a.title = b.title
  outcome : a.outcome = b.outcome
  criteria : a.acceptanceCriteria = b.acceptanceCriteria
  source : a.sourceRequirementIds.Perm b.sourceRequirementIds
  dependencies : a.dependencyItemIds.Perm b.dependencyItemIds

/-- The same items in another order, each perhaps reordered. -/
def Rearranged (items items' : List ItemInput) : Prop :=
  ∃ mid, items.Perm mid ∧ List.Forall₂ Reordered mid items'

/- Sorting forgets the order where the order is antisymmetric on what is sorted. -/
theorem insertionSort_of_perm {α : Type} (r : α → α → Prop) [DecidableRel r] [Std.Total r]
    [IsTrans α r] (l l' : List α) (h : l.Perm l')
    (hanti : ∀ a ∈ l, ∀ b ∈ l, r a b → r b a → a = b) : l.insertionSort r = l'.insertionSort r := by
  have hl := List.perm_insertionSort r l
  have hl' := List.perm_insertionSort r l'
  have hperm := (hl.trans h).trans hl'.symm
  refine hperm.eq_of_pairwise ?_ (List.pairwise_insertionSort r l) (List.pairwise_insertionSort r l')
  intro a b ha hb
  exact hanti a (hl.mem_iff.mp ha) b (h.mem_iff.mpr (hl'.mem_iff.mp hb))

instance : Std.Total itemLe := ⟨fun a b => by
  unfold itemLe
  rcases Nat.lt_trichotomy a.ordinal b.ordinal with h | h | h
  · exact .inl (.inl h)
  · exact (le_total (uuidText a.itemId) (uuidText b.itemId)).imp (fun hle => .inr ⟨h, hle⟩)
      fun hle => .inr ⟨h.symm, hle⟩
  · exact .inr (.inl h)⟩

instance : IsTrans ItemInput itemLe := ⟨fun a b c hab hbc => by
  unfold itemLe at *
  rcases hab with hab | ⟨hab, hle⟩
  · exact .inl (by omega)
  · rcases hbc with hbc | ⟨hbc, hle'⟩
    · exact .inl (by omega)
    · exact .inr ⟨hab.trans hbc, hle.trans hle'⟩⟩

instance : Std.Total fun a b : UUID => uuidText a ≤ uuidText b :=
  ⟨fun a b => le_total (uuidText a) (uuidText b)⟩

instance : IsTrans UUID fun a b => uuidText a ≤ uuidText b := ⟨fun _ _ _ h h' => le_trans h h'⟩

theorem sortIds_of_perm (l l' : List UUID) (h : l.Perm l') : sortIds l = sortIds l' :=
  insertionSort_of_perm _ l l' h fun a _ b _ hab hba => uuidText_injective a b (le_antisymm hab hba)

theorem sortedTexts_of_perm (l l' : List UUID) (h : l.Perm l') : sortedTexts l = sortedTexts l' :=
  insertionSort_of_perm _ _ _ (h.map uuidText) fun _ _ _ _ hab hba => le_antisymm hab hba

theorem ItemInput.eq_of {a b : ItemInput} (h : Reordered a b)
    (hsource : a.sourceRequirementIds = b.sourceRequirementIds)
    (hdependencies : a.dependencyItemIds = b.dependencyItemIds) : a = b := by
  obtain ⟨hid, hdisposition, hordinal, htitle, houtcome, hcriteria, -, -⟩ := h
  obtain ⟨id, disposition, ordinal, title, outcome, criteria, source, dependencies⟩ := a
  obtain ⟨id', disposition', ordinal', title', outcome', criteria', source', dependencies'⟩ := b
  simp only at *
  subst_vars
  rfl

theorem sorted_of_reordered (a b : ItemInput) (h : Reordered a b) : a.sorted = b.sorted := by
  have hsource := sortIds_of_perm _ _ h.source
  have hdependencies := sortIds_of_perm _ _ h.dependencies
  refine ItemInput.eq_of ⟨h.itemId, h.disposition, h.ordinal, h.title, h.outcome, h.criteria, ?_, ?_⟩
    hsource hdependencies
  · exact List.Perm.of_eq hsource
  · exact List.Perm.of_eq hdependencies

theorem sorted_reordered (a : ItemInput) : Reordered a a.sorted :=
  ⟨rfl, rfl, rfl, rfl, rfl, rfl, (sortIds_perm _).symm, (sortIds_perm _).symm⟩

section results
variable (isAlnum : ℕ → Bool) (sha256 : Str → Str)

/- The payload of the digest lists sorted texts already. -/
theorem itemPayload_of_reordered (a b : ItemInput) (h : Reordered a b) :
    itemPayload a = itemPayload b := by
  unfold itemPayload
  rw [h.itemId, h.disposition, h.ordinal, h.title, h.outcome, h.criteria,
    sortedTexts_of_perm _ _ h.source, sortedTexts_of_perm _ _ h.dependencies]

theorem snapshotOf_sorted (graphRevisionId : UUID) (item : ItemInput) :
    snapshotOf isAlnum sha256 graphRevisionId item.sorted =
      snapshotOf isAlnum sha256 graphRevisionId item := by
  have hpayload := itemPayload_of_reordered item item.sorted (sorted_reordered item)
  have hsorted := sorted_of_reordered item item.sorted (sorted_reordered item)
  unfold snapshotOf
  rw [← hpayload, ← hsorted]

theorem mapM_sorted (graphRevisionId : UUID) (items : List ItemInput) :
    (items.map ItemInput.sorted).mapM (snapshotOf isAlnum sha256 graphRevisionId) =
      items.mapM (snapshotOf isAlnum sha256 graphRevisionId) := by
  induction items with
  | nil => rfl
  | cons item items ih =>
    rw [List.map_cons, List.mapM_cons, List.mapM_cons, snapshotOf_sorted, ih]

theorem map_sorted_of_rearranged (mid items' : List ItemInput)
    (h : List.Forall₂ Reordered mid items') :
    mid.map ItemInput.sorted = items'.map ItemInput.sorted := by
  induction h with
  | nil => rfl
  | cons hhead _ ih => rw [List.map_cons, List.map_cons, sorted_of_reordered _ _ hhead, ih]

/- Sorting by key and sorting the id lists commute. -/
theorem map_sorted_insertionSort (items : List ItemInput) :
    (items.insertionSort itemLe).map ItemInput.sorted =
      (items.map ItemInput.sorted).insertionSort itemLe :=
  List.map_insertionSort itemLe itemLe ItemInput.sorted items fun _ _ _ _ => Iff.rfl

theorem itemLe_antisymm (items : List ItemInput) (hu : (ids items).Nodup) (a : ItemInput)
    (ha : a ∈ items) (b : ItemInput) (hb : b ∈ items) (hab : itemLe a b) (hba : itemLe b a) :
    a = b := by
  have hid : a.itemId = b.itemId := by
    unfold itemLe at hab hba
    rcases hab with hab | ⟨hab, hle⟩
    · rcases hba with hba | ⟨hba, -⟩
      · omega
      · omega
    · rcases hba with hba | ⟨-, hge⟩
      · omega
      · exact uuidText_injective _ _ (le_antisymm hle hge)
  exact List.inj_on_of_nodup_map hu ha hb hid

theorem assemble_rearranged (graphRevisionId : UUID) (items items' : List ItemInput)
    (briefRevisionId : UUID) (briefDigest : Str) (hu : (ids items).Nodup)
    (h : Rearranged items items') :
    assemble isAlnum sha256 graphRevisionId items' briefRevisionId briefDigest =
      assemble isAlnum sha256 graphRevisionId items briefRevisionId briefDigest := by
  obtain ⟨mid, hperm, hreordered⟩ := h
  have hsame : items.insertionSort itemLe = mid.insertionSort itemLe :=
    insertionSort_of_perm itemLe items mid hperm fun a ha b hb => itemLe_antisymm items hu a ha b hb
  have hmap : (items'.insertionSort itemLe).map ItemInput.sorted =
      (items.insertionSort itemLe).map ItemInput.sorted := by
    rw [hsame, map_sorted_insertionSort, map_sorted_insertionSort,
      map_sorted_of_rearranged mid items' hreordered]
  unfold assemble
  rw [← mapM_sorted isAlnum sha256 graphRevisionId (items'.insertionSort itemLe), hmap, mapM_sorted]

theorem snapshots_items (graphRevisionId : UUID) (items : List ItemInput)
    (snapshots : List ItemSnapshot)
    (h : items.mapM (snapshotOf isAlnum sha256 graphRevisionId) = .ok snapshots) :
    snapshots.map (fun s => s.toItemInput) = items.map ItemInput.sorted := by
  have hitems := (mapM_eq_ok _ _ _).mp h
  clear h
  induction hitems with
  | nil => rfl
  | cons hhead _ ih =>
    simp only [snapshotOf, bind_eq_ok] at hhead
    obtain ⟨_, _, _, _, hhead⟩ := hhead
    cases hhead
    rw [List.map_cons, List.map_cons, ih]

/- The items come out in the order of their keys. -/
theorem assemble_sorted (graphRevisionId : UUID) (items : List ItemInput) (briefRevisionId : UUID)
    (briefDigest : Str) (snapshots : List ItemSnapshot) (digest : Str)
    (h : assemble isAlnum sha256 graphRevisionId items briefRevisionId briefDigest =
      .ok (snapshots, digest)) :
    snapshots.Pairwise fun a b => itemLe a.toItemInput b.toItemInput := by
  simp only [assemble, bind_eq_ok] at h
  obtain ⟨listed, hlisted, _, _, _, _, _, _, _, _, h⟩ := h
  cases h
  have hmap := snapshots_items isAlnum sha256 graphRevisionId _ snapshots hlisted
  have hsorted := List.pairwise_insertionSort itemLe (items.map ItemInput.sorted)
  rw [← map_sorted_insertionSort, ← hmap] at hsorted
  exact List.pairwise_map.mp hsorted

end results

/-! ## Validation does not see the order -/

theorem ids_rearranged (items items' : List ItemInput) (h : Rearranged items items') :
    (ids items).Perm (ids items') := by
  obtain ⟨mid, hperm, hreordered⟩ := h
  have hmid : ids mid = ids items' := by
    clear hperm
    induction hreordered with
    | nil => rfl
    | cons hhead _ ih =>
      unfold ids at *
      rw [List.map_cons, List.map_cons, hhead.itemId, ih]
  exact hmid ▸ hperm.map ItemInput.itemId

theorem mem_rearranged (items items' : List ItemInput) (h : Rearranged items items')
    (item' : ItemInput) (hmem : item' ∈ items') : ∃ item ∈ items, Reordered item item' := by
  obtain ⟨mid, hperm, hreordered⟩ := h
  have hmid : ∃ item ∈ mid, Reordered item item' := by
    clear hperm
    induction hreordered with
    | nil => cases hmem
    | cons hhead _ ih =>
      rcases List.mem_cons.mp hmem with rfl | htail
      · exact ⟨_, List.mem_cons_self, hhead⟩
      · obtain ⟨item, hitem, hr⟩ := ih htail
        exact ⟨item, List.mem_cons_of_mem _ hitem, hr⟩
  obtain ⟨item, hitem, hr⟩ := hmid
  exact ⟨item, hperm.mem_iff.mpr hitem, hr⟩

theorem validGraph_rearranged (items items' : List ItemInput) (h : Rearranged items items')
    (hvalid : ValidGraph items) : ValidGraph items' := by
  have hids := ids_rearranged items items' h
  have hlen : items.length = items'.length := by
    have hcount := hids.length_eq
    unfold ids at hcount
    rwa [List.length_map, List.length_map] at hcount
  refine ⟨hlen ▸ hvalid.few, hids.nodup_iff.mp hvalid.unique, fun item' hitem' => ?_, ?_⟩
  · obtain ⟨item, hitem, hr⟩ := mem_rearranged items items' h item' hitem'
    obtain ⟨hself, hdeps⟩ := hvalid.edges item hitem
    refine ⟨fun hmem => hself ?_, fun dep hdep => ?_⟩
    · rw [hr.itemId]
      exact hr.dependencies.mem_iff.mpr hmem
    · exact hids.mem_iff.mp (hdeps dep (hr.dependencies.mem_iff.mpr hdep))
  · refine hvalid.acyclic.mono fun v d hvd => ?_
    obtain ⟨item', hitem', hid, hdep⟩ := hvd
    obtain ⟨item, hitem, hr⟩ := mem_rearranged items items' h item' hitem'
    exact ⟨item, hitem, hr.itemId.trans hid, hr.dependencies.mem_iff.mpr hdep⟩

/-- What `make_snapshot` says of a graph that `validate_graph` accepts. -/
structure Canonical (isAlnum : ℕ → Bool) (sha256 : Str → Str) (graphRevisionId : UUID)
    (briefRevisionId : UUID) (briefDigest : Str) : Prop where
  same : ∀ items items', Prog.Returns (validateGraph items false) (.ok ()) →
    Rearranged items items' →
    ∃ r, Prog.Returns
        (makeSnapshot isAlnum sha256 graphRevisionId items briefRevisionId briefDigest) r ∧
      Prog.Returns
        (makeSnapshot isAlnum sha256 graphRevisionId items' briefRevisionId briefDigest) r
  sorted : ∀ items snapshots digest,
    Prog.Returns (makeSnapshot isAlnum sha256 graphRevisionId items briefRevisionId briefDigest)
      (.ok (snapshots, digest)) →
    snapshots.Pairwise fun a b => itemLe a.toItemInput b.toItemInput

theorem returns_makeSnapshot (isAlnum : ℕ → Bool) (sha256 : Str → Str) (graphRevisionId : UUID)
    (items : List ItemInput) (briefRevisionId : UUID) (briefDigest : Str)
    (h : Prog.Returns (validateGraph items false) (.ok ())) :
    Prog.Returns (makeSnapshot isAlnum sha256 graphRevisionId items briefRevisionId briefDigest)
      (assemble isAlnum sha256 graphRevisionId items briefRevisionId briefDigest) :=
  Prog.returns_bind h (Prog.returns_pure _)

/-- One snapshot and one digest for a graph, whatever the order it is given in. -/
theorem snapshot_canonical (isAlnum : ℕ → Bool) (sha256 : Str → Str) (graphRevisionId : UUID)
    (briefRevisionId : UUID) (briefDigest : Str) :
    Canonical isAlnum sha256 graphRevisionId briefRevisionId briefDigest where
  same items items' hvalid h := by
    obtain ⟨r, hr, hiff⟩ := returns_validateGraph items false
    have hgraph := (hiff.mp (hr.unique hvalid)).1
    obtain ⟨r', hr', hiff'⟩ := returns_validateGraph items' false
    have hok : r' = .ok () := hiff'.mpr ⟨validGraph_rearranged items items' h hgraph, nofun⟩
    rw [hok] at hr'
    refine ⟨_, returns_makeSnapshot isAlnum sha256 graphRevisionId items _ _ hvalid, ?_⟩
    rw [← assemble_rearranged isAlnum sha256 graphRevisionId items items' _ _ hgraph.unique h]
    exact returns_makeSnapshot isAlnum sha256 graphRevisionId items' _ _ hr'
  sorted items snapshots digest h := by
    obtain ⟨r, hr, -⟩ := returns_validateGraph items false
    cases r with
    | error e =>
      have hrun : Prog.Returns
          (makeSnapshot isAlnum sha256 graphRevisionId items briefRevisionId briefDigest)
          (.error (.graph e)) := Prog.returns_bind hr (Prog.returns_pure _)
      cases h.unique hrun
    | ok u =>
      have hrun := returns_makeSnapshot isAlnum sha256 graphRevisionId items briefRevisionId
        briefDigest hr
      exact assemble_sorted isAlnum sha256 graphRevisionId items _ _ _ _ (h.unique hrun).symm

end ParallelForge.Epic
