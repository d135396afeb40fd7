import ParallelForge.Base.PyJsonText
import ParallelForge.Policy.DependencyScope

/-!
# Dependency authorisation is exact

The deltas of a manifest are the difference of its entries. The declarations that
are accepted are those of the deltas, each once; and a delta has a declaration that
can be accepted exactly where its texts have no lone surrogates.
-/

namespace ParallelForge.Policy
open Base Json PyJson Codec

variable {r : Readers}

/-! ## Deltas -/

variable {before after : Entries}

theorem entryKeys_nodup : (entryKeys before after).Nodup :=
  (List.perm_insertionSort entryLe _).nodup_iff.mpr (List.nodup_dedup _)

theorem mem_entryKeys (key : Str × Str) (h : before.get key ≠ after.get key) : key ∈ entryKeys before after := by
  rw [entryKeys, (List.perm_insertionSort entryLe _).mem_iff, List.mem_dedup, List.mem_append]
  cases hbefore : before.get key with
  | some text => exact Or.inl (List.mem_map_of_mem ((Table.mem_rows_iff before key text).mpr hbefore))
  | none =>
    cases hafter : after.get key with
    | some text => exact Or.inr (List.mem_map_of_mem ((Table.mem_rows_iff after key text).mpr hafter))
    | none => exact absurd (hbefore.trans hafter.symm) h

def DependencyDelta.key (d : DependencyDelta) : Str × Str := (d.group, d.package)

/- A delta says what its key had before and has after, and the two differ. -/
theorem entryDelta_eq_some (path : Str) (key : Str × Str) (d : DependencyDelta) :
    entryDelta path before after key = some d ↔ before.get key ≠ after.get key ∧ d.key = key ∧ d.path = path ∧
      d.before = before.get key ∧ d.after = after.get key := by
  unfold entryDelta
  split
  · next h =>
    rw [Option.some.injEq]
    constructor
    · rintro rfl
      exact ⟨h, rfl, rfl, rfl, rfl⟩
    · rintro ⟨-, rfl, rfl, hbefore, hafter⟩
      cases d
      simp only at hbefore hafter
      rw [← hbefore, ← hafter]
      rfl
  · next h =>
    constructor
    · intro hd
      cases hd
    · exact fun hd => absurd hd.1 h

theorem deltas_keys (path : Str) (keys : List (Str × Str)) :
    ((keys.filterMap (entryDelta path before after)).map DependencyDelta.key).Sublist keys := by
  induction keys with
  | nil => exact List.Sublist.slnil
  | cons key keys ih =>
    cases hd : entryDelta path before after key with
    | none =>
      rw [List.filterMap_cons_none hd]
      exact ih.cons key
    | some d =>
      rw [List.filterMap_cons_some hd, List.map_cons, ((entryDelta_eq_some path key d).mp hd).2.1]
      exact ih.cons_cons key

/-- The deltas of two tables of entries lead from the first to the second. -/
theorem deltas_apply (path : Str) (key : Str × Str) :
    (before.setAll DependencyDelta.key DependencyDelta.after
      ((entryKeys before after).filterMap (entryDelta path before after))).get key = after.get key := by
  apply Table.get_setAll_of_differ
  · exact List.Nodup.sublist (deltas_keys path _) entryKeys_nodup
  · intro d hd
    obtain ⟨key, -, hkey⟩ := List.mem_filterMap.mp hd
    obtain ⟨-, rfl, -, -, hafter⟩ := (entryDelta_eq_some path key d).mp hkey
    exact hafter
  · intro key hne
    have hdelta : entryDelta path before after key = some ⟨path, key.1, key.2, before.get key, after.get key⟩ :=
      if_pos hne
    exact ⟨_, List.mem_filterMap.mpr ⟨key, mem_entryKeys key hne, hdelta⟩, rfl⟩

/-! ## The text of a declaration -/

/-- Texts of code points that UTF-8 has. -/
def DependencyDelta.Encodable (d : DependencyDelta) : Prop :=
  ∀ s ∈ d.path :: d.group :: d.package :: (d.before.toList ++ d.after.toList), ∀ c ∈ s, isScalar c = true

theorem escape_scalar (c : ℕ) : (escape false c).all isScalar = isScalar c := by
  have hsmall : ∀ n, n < 127 → isScalar n = true := by
    intro n hn
    simp only [isScalar, Bool.or_eq_true, decide_eq_true_eq]
    omega
  unfold escape
  cases hshort : shortEscape c with
  | some e =>
    have hletter := shortEscape_letter hshort
    have hc : c < 127 := by
      by_contra hwide
      rw [shortEscape_wide (by omega)] at hshort
      cases hshort
    simp [hsmall c hc, hsmall e (by omega), hsmall 92 (by omega)]
  | none =>
    simp only [Bool.not_false, Bool.true_or, if_true]
    split
    · next hc =>
      obtain ⟨word, hword, hall⟩ := unicodeEscape_letters c
      rw [hsmall c (by omega), List.all_eq_true, hword, List.forall_mem_cons]
      exact ⟨hsmall 92 (by omega), fun n hn => hsmall n (hall n hn).2.1⟩
    · simp

theorem stringText_scalar (s : Str) : (stringText false s).all isScalar = s.all isScalar := by
  have hquote : isScalar 34 = true := by decide
  rw [stringText, List.all_cons, List.all_append, hquote, Bool.true_and, List.all_flatMap, List.all_cons, hquote]
  simp only [escape_scalar, List.all_nil, Bool.and_true]

theorem optionalText_scalar (o : Option Str) :
    (PyJson.render false false (optionalText o)).all isScalar = o.toList.all (·.all isScalar) := by
  cases o with
  | none => rfl
  | some s =>
    rw [optionalText, PyJson.render, stringText_scalar, Option.toList_some, List.all_cons, List.all_nil, Bool.and_true]

/- The keys stand in their order. -/
theorem sortKeys_members (d : DependencyDelta) : PyJson.sortKeys (.obj d.members) = .obj d.members := by
  have hoptional : ∀ o, PyJson.sortKeys (optionalText o) = optionalText o := by
    intro o
    cases o with
    | none => rfl
    | some s => rfl
  have hsame : PyJson.sortKeysMembers d.members = d.members := by
    simp only [DependencyDelta.members, PyJson.sortKeysMembers, hoptional, PyJson.sortKeys]
  have hsorted : d.members.Pairwise fun p q => p.1 ≤ q.1 := by
    simp only [DependencyDelta.members, List.pairwise_cons, List.forall_mem_cons]
    decide
  rw [PyJson.sortKeys, hsame, List.Pairwise.insertionSort_eq hsorted]

theorem canonicalText_members (d : DependencyDelta) :
    canonicalText d.members = PyJson.render false false (.obj d.members) := by
  rw [canonicalText, sortKeys_members]

theorem encodable_iff (d : DependencyDelta) :
    d.Encodable ↔ ∀ c ∈ canonicalText d.members, isScalar c = true := by
  have hkey : ∀ word ∈ ["after", "before", "group", "package", "path"],
      (stringText false (codes word)).all isScalar = true := by decide
  have hletter : ∀ c ∈ [123, 58, 44, 125], isScalar c = true := by decide
  have htext : (∀ c ∈ canonicalText d.members, isScalar c = true) ↔
      d.after.toList.all (·.all isScalar) = true ∧ d.before.toList.all (·.all isScalar) = true ∧
        d.group.all isScalar = true ∧ d.package.all isScalar = true ∧ d.path.all isScalar = true := by
    rw [← List.all_eq_true, canonicalText_members, DependencyDelta.members, PyJson.render]
    simp only [PyJson.renderMembers, PyJson.render, gap, List.all_cons, List.all_append, List.all_nil,
      stringText_scalar, optionalText_scalar, hkey, hletter, List.mem_cons, true_or, or_true, Bool.true_and,
      Bool.and_true, Bool.and_eq_true, Bool.false_eq_true, if_false]
  simp only [htext, DependencyDelta.Encodable, List.forall_mem_cons, List.forall_mem_append, List.all_eq_true]
  constructor
  · rintro ⟨hpath, hgroup, hpackage, hbefore, hafter⟩
    exact ⟨hafter, hbefore, hgroup, hpackage, hpath⟩
  · rintro ⟨hafter, hbefore, hgroup, hpackage, hpath⟩
    exact ⟨hpath, hgroup, hpackage, hbefore, hafter⟩

/-! ## Reading a declaration -/

theorem rejectDuplicates_nodup (pairs : List (Str × PyJson)) : ∀ result : List (Str × PyJson),
    ((result ++ pairs).map Prod.fst).Nodup → rejectDuplicates result pairs = .ok (.obj (result ++ pairs)) := by
  induction pairs with
  | nil =>
    intro result _
    rw [rejectDuplicates, List.append_nil]
  | cons p pairs ih =>
    intro result hn
    have hnew : p.1 ∉ result.map Prod.fst := by
      rw [List.map_append, List.map_cons, List.nodup_append] at hn
      intro hmem
      exact hn.2.2 p.1 hmem p.1 List.mem_cons_self rfl
    have hjoin : result ++ [p] ++ pairs = result ++ p :: pairs := List.append_cons result p pairs ▸ rfl
    rw [rejectDuplicates, require, if_pos hnew]
    change rejectDuplicates (result ++ [p]) pairs = _
    rw [ih (result ++ [p]) (by rwa [hjoin]), hjoin]

theorem isText_of_scalar {s : Str} (h : ∀ c ∈ s, isScalar c = true) : isText s := by
  intro c hc
  have hscalar := h c hc
  simp only [isScalar, Bool.or_eq_true, Bool.and_eq_true, decide_eq_true_eq] at hscalar
  omega

/- The members of a delta whose texts are encodable are read back as they are. -/
theorem members_reread (d : DependencyDelta) (h : d.Encodable) :
    (∀ p ∈ d.members, isText p.1 ∧ PyJson.Plain false p.2 ∧ isTextOrNone p.2 = true) ∧
      (d.members.map fun p => (rejoin false p.1, reread false p.2)) = d.members := by
  have hword : ∀ word ∈ ["after", "before", "group", "package", "path"], isText (codes word) := by
    unfold isText
    decide
  simp only [DependencyDelta.Encodable, List.forall_mem_cons, List.forall_mem_append] at h
  obtain ⟨hpath, hgroup, hpackage, hbefore, hafter⟩ := h
  have htext : ∀ s : Str, isText s → PyJson.Plain false (.str s) ∧ isTextOrNone (.str s) = true ∧
      reread false (.str s) = .str s := by
    intro s hs
    refine ⟨by rwa [PyJson.Plain], rfl, ?_⟩
    rw [reread, rejoin_open hs]
  have hoptional : ∀ o : Option Str, (∀ s ∈ o.toList, ∀ c ∈ s, isScalar c = true) →
      PyJson.Plain false (optionalText o) ∧ isTextOrNone (optionalText o) = true ∧
        reread false (optionalText o) = optionalText o := by
    intro o ho
    cases o with
    | none => exact ⟨trivial, rfl, rfl⟩
    | some s => exact htext s (isText_of_scalar (ho s (by simp)))
  have hgroupText := htext d.group (isText_of_scalar hgroup)
  have hpackageText := htext d.package (isText_of_scalar hpackage)
  have hpathText := htext d.path (isText_of_scalar hpath)
  have hbeforeText := hoptional d.before hbefore
  have hafterText := hoptional d.after hafter
  constructor
  · simp only [DependencyDelta.members, List.forall_mem_cons]
    exact ⟨⟨hword "after" (by simp), hafterText.1, hafterText.2.1⟩,
      ⟨hword "before" (by simp), hbeforeText.1, hbeforeText.2.1⟩,
      ⟨hword "group" (by simp), hgroupText.1, hgroupText.2.1⟩,
      ⟨hword "package" (by simp), hpackageText.1, hpackageText.2.1⟩,
      ⟨hword "path" (by simp), hpathText.1, hpathText.2.1⟩, fun p hp => absurd hp List.not_mem_nil⟩
  · simp only [DependencyDelta.members, List.map_cons, List.map_nil, hafterText.2.2, hbeforeText.2.2, hgroupText.2.2,
      hpackageText.2.2, hpathText.2.2]
    rw [rejoin_open (hword "after" (by simp)), rejoin_open (hword "before" (by simp)),
      rejoin_open (hword "group" (by simp)), rejoin_open (hword "package" (by simp)),
      rejoin_open (hword "path" (by simp))]

theorem loadJson_members (d : DependencyDelta) (h : d.Encodable) {bytes : List ℕ}
    (hbytes : encode (canonicalText d.members) = some bytes) : loadJson r (some bytes) = .ok d.members := by
  have hreread := members_reread d h
  have hkeys : (d.members.map Prod.fst).Nodup := by
    have hwords : d.members.map Prod.fst = ["after", "before", "group", "package", "path"].map codes := rfl
    rw [hwords]
    decide
  have hloads : loadsHooked ManifestError.json r.readFloat (rejectDuplicates [])
      (PyJson.render false false (.obj d.members)) = .ok (.obj d.members) := by
    have hflat : loadsHooked ManifestError.json r.readFloat (rejectDuplicates [])
        (PyJson.render false false (.obj d.members)) =
        rejectDuplicates [] (d.members.map fun p => (rejoin false p.1, reread false p.2)) :=
      loadsHooked_flat (codes "after") (optionalText d.after) d.members.tail hreread.1
    rw [hflat, hreread.2, rejectDuplicates_nodup d.members [] hkeys, List.nil_append]
  rw [loadJson, utf8_encode hbytes, canonicalText_members]
  simp only [orRaise, hloads, bind, Except.bind, pure, Except.pure]

theorem encode_payload (d : DependencyDelta) :
    (encode (d.declaration.drop declarationPrefix.length)).isSome = true ↔ d.Encodable := by
  rw [DependencyDelta.declaration, List.drop_left, encode_isSome, List.all_eq_true, encodable_iff]

/- What is accepted is the declaration itself, and it is encodable. -/
theorem readDeclaration_eq {declaration canonical : Str} (h : readDeclaration r declaration = some canonical) :
    canonical = declaration ∧ (encode (declaration.drop declarationPrefix.length)).isSome = true := by
  unfold readDeclaration at h
  split at h
  · split at h
    · cases h
    · next payload hpayload =>
      split at h
      · cases h
      · simp only at h
        split at h
        · split at h
          · cases h
          · next hsame =>
            cases h
            rw [not_or, Classical.not_not] at hsame
            exact ⟨hsame.1, by rw [hpayload]; rfl⟩
        · cases h
  · cases h

theorem readDeclaration_delta (d : DependencyDelta) (h : d.Encodable) :
    readDeclaration r d.declaration = some d.declaration := by
  obtain ⟨bytes, hbytes⟩ := Option.isSome_iff_exists.mp ((encode_payload d).mpr h)
  have hdrop : d.declaration.drop declarationPrefix.length = canonicalText d.members := by
    rw [DependencyDelta.declaration, List.drop_left]
  have hkeys : hasDeltaKeys d.members = true := rfl
  have hleaf : d.members.any (fun p => !isTextOrNone p.2) = false := by
    rw [List.any_eq_false]
    intro p hp
    rw [((members_reread d h).1 p hp).2.2]
    exact Bool.false_ne_true
  have hprefix : declarationPrefix <+: d.declaration := List.prefix_append _ _
  rw [hdrop] at hbytes
  unfold readDeclaration
  rw [if_pos hprefix, hdrop, hbytes]
  simp only [loadJson_members d h hbytes, hkeys, hleaf, if_true, Bool.false_eq_true, or_false]
  exact if_neg (Classical.not_not.mpr rfl)

/- A declaration says which delta it declares. -/
theorem declaration_injective {d e : DependencyDelta} (hd : d.Encodable) (he : e.Encodable)
    (h : d.declaration = e.declaration) : d = e := by
  have htext : canonicalText d.members = canonicalText e.members := List.append_cancel_left h
  have hsome : (encode (canonicalText d.members)).isSome = true := by
    rw [encode_isSome, List.all_eq_true]
    exact (encodable_iff d).mp hd
  obtain ⟨bytes, hbytes⟩ := Option.isSome_iff_exists.mp hsome
  have hmembers : d.members = e.members := by
    have hleft : loadJson ⟨fun _ => none, some, id, some⟩ (some bytes) = .ok d.members := loadJson_members d hd hbytes
    rw [loadJson_members e he (htext ▸ hbytes), Except.ok.injEq] at hleft
    exact hleft.symm
  have hoptional : ∀ {o p : Option Str}, optionalText o = optionalText p → o = p := by
    intro o p hop
    cases o with
    | none => cases p with
      | none => rfl
      | some t => cases hop
    | some s => cases p with
      | none => cases hop
      | some t =>
        rw [optionalText, optionalText, PyJson.str.injEq] at hop
        rw [hop]
  simp only [DependencyDelta.members, List.cons.injEq, Prod.mk.injEq, PyJson.str.injEq, true_and, and_true] at hmembers
  obtain ⟨hafter, hbefore, hgroup, hpackage, hpath⟩ := hmembers
  cases d
  cases e
  simp only at hafter hbefore hgroup hpackage hpath
  rw [hoptional hafter, hoptional hbefore, hgroup, hpackage, hpath]

/-! ## Authorisation -/

/- The loop keeps every declaration that is accepted. -/
theorem collectDeclarations_eq_some (declarations : List Str) : ∀ actual result : Finset Str,
    collectDeclarations r actual declarations = some result ↔
      (∀ d ∈ declarations, readDeclaration r d = some d) ∧ result = actual ∪ declarations.toFinset := by
  induction declarations with
  | nil =>
    intro actual result
    rw [collectDeclarations, Option.some.injEq, List.toFinset_nil, Finset.union_empty]
    constructor
    · rintro rfl
      exact ⟨fun d hd => absurd hd List.not_mem_nil, rfl⟩
    · exact fun h => h.2.symm
  | cons declaration declarations ih =>
    intro actual result
    rw [collectDeclarations, List.forall_mem_cons]
    cases hread : readDeclaration r declaration with
    | none =>
      constructor
      · intro h
        cases h
      · intro h
        cases h.1.1
    | some canonical =>
      have hself : canonical = declaration := (readDeclaration_eq hread).1
      simp only [ih, hself, List.toFinset_cons, Finset.insert_union, Finset.union_insert, true_and]

theorem card_eq_length (l : List Str) : l.toFinset.card = l.length ↔ l.Nodup := by
  rw [List.card_toFinset]
  constructor
  · intro h
    rw [← List.dedup_eq_self]
    exact (List.dedup_sublist l).eq_of_length h
  · intro h
    rw [List.dedup_eq_self.mpr h]

theorem verify_eq_none (deltas : List DependencyDelta) (declarations : List Str) :
    verifyDependencyDeclarations r deltas declarations = none ↔ declarations.Nodup ∧
      declarations.toFinset = (deltas.map DependencyDelta.declaration).toFinset ∧ ∀ d ∈ deltas, d.Encodable := by
  have hverify : verifyDependencyDeclarations r deltas declarations = none ↔
      (∀ d ∈ declarations, readDeclaration r d = some d) ∧ declarations.Nodup ∧
        declarations.toFinset = (deltas.map DependencyDelta.declaration).toFinset := by
    unfold verifyDependencyDeclarations
    cases hcollect : collectDeclarations r ∅ declarations with
    | none =>
      constructor
      · intro h
        cases h
      · intro h
        have hsome := (collectDeclarations_eq_some declarations ∅ _).mpr ⟨h.1, rfl⟩
        rw [hcollect] at hsome
        cases hsome
    | some actual =>
      obtain ⟨hread, hactual⟩ := (collectDeclarations_eq_some declarations ∅ actual).mp hcollect
      rw [Finset.empty_union] at hactual
      simp only [hactual, ne_eq, card_eq_length, ite_eq_iff, reduceCtorEq, and_false, false_or, Classical.not_not,
        and_true]
      exact ⟨fun h => ⟨hread, h⟩, fun h => h.2⟩
  rw [hverify]
  constructor
  · rintro ⟨hread, hnodup, hset⟩
    refine ⟨hnodup, hset, ?_⟩
    intro d hd
    have hmem : d.declaration ∈ declarations := by
      rw [← List.mem_toFinset, hset, List.mem_toFinset]
      exact List.mem_map_of_mem hd
    exact (encode_payload d).mp (readDeclaration_eq (hread d.declaration hmem)).2
  · rintro ⟨hnodup, hset, hencodable⟩
    refine ⟨?_, hnodup, hset⟩
    intro declaration hmem
    rw [← List.mem_toFinset, hset, List.mem_toFinset] at hmem
    obtain ⟨d, hd, rfl⟩ := List.mem_map.mp hmem
    exact readDeclaration_delta d (hencodable d hd)

/-- The entries after the deltas were made. -/
def applyDeltas (base : Entries) (deltas : List DependencyDelta) : Entries :=
  base.setAll DependencyDelta.key DependencyDelta.after deltas

/- What the result of `dependency_deltas` was computed from. -/
theorem dependencyDeltas_eq_ok {platform : Platform} {snapshot : GitCandidateFile} {deltas : List DependencyDelta}
    (h : dependencyDeltas r platform snapshot = .ok deltas) : ∃ base baseUnknown head headUnknown,
      entries r snapshot.path snapshot.baseContent = .ok (base, baseUnknown) ∧
        entries r snapshot.path snapshot.headContent = .ok (head, headUnknown) ∧
        deltas = (entryKeys base head).filterMap (entryDelta snapshot.path base head) := by
  rw [dependencyDeltas, bind_eq_ok] at h
  obtain ⟨path, hpath, h⟩ := h
  rw [mapError_eq_ok] at hpath
  obtain rfl : path = snapshot.path := normalizePolicyPath_eq snapshot.path path hpath
  rw [require_bind_eq_ok, bind_eq_ok] at h
  obtain ⟨-, ⟨base, baseUnknown⟩, hbase, h⟩ := h
  rw [bind_eq_ok] at h
  obtain ⟨⟨head, headUnknown⟩, hhead, h⟩ := h
  rw [bind_eq_ok] at h
  obtain ⟨beforeText, -, h⟩ := h
  rw [bind_eq_ok] at h
  obtain ⟨afterText, -, h⟩ := h
  rw [require_bind_eq_ok] at h
  obtain ⟨-, h⟩ := h
  cases h
  exact ⟨base, baseUnknown, head, headUnknown, hbase, hhead, rfl⟩

/-- The deltas of a manifest lead from its entries at the base to those at the head, one for each entry
that differs; and declarations are accepted when they are those of the deltas, each once, and every delta
can be written in UTF-8. -/
theorem authorisation_exact (r : Readers) (platform : Platform) :
    (∀ snapshot deltas, dependencyDeltas r platform snapshot = .ok deltas → ∃ base baseUnknown head headUnknown,
      entries r snapshot.path snapshot.baseContent = .ok (base, baseUnknown) ∧
      entries r snapshot.path snapshot.headContent = .ok (head, headUnknown) ∧
      (∀ key, (applyDeltas base deltas).get key = head.get key) ∧
      (deltas.map fun d => (d.group, d.package)).Nodup ∧ ∀ d ∈ deltas, d.before ≠ d.after ∧ d.path = snapshot.path) ∧
    (∀ deltas declarations, verifyDependencyDeclarations r deltas declarations = none ↔
      declarations.Nodup ∧ declarations.toFinset = (deltas.map DependencyDelta.declaration).toFinset ∧
        ∀ d ∈ deltas, d.Encodable) ∧
    ∀ deltas : List DependencyDelta, deltas.Nodup → (∀ d ∈ deltas, d.Encodable) →
      verifyDependencyDeclarations r deltas (deltas.map DependencyDelta.declaration) = none := by
  refine ⟨?_, verify_eq_none, ?_⟩
  · intro snapshot deltas h
    obtain ⟨base, baseUnknown, head, headUnknown, hbase, hhead, rfl⟩ := dependencyDeltas_eq_ok h
    refine ⟨base, baseUnknown, head, headUnknown, hbase, hhead, deltas_apply snapshot.path,
      List.Nodup.sublist (deltas_keys snapshot.path _) entryKeys_nodup, ?_⟩
    intro d hd
    obtain ⟨key, -, hkey⟩ := List.mem_filterMap.mp hd
    obtain ⟨hne, -, hpath, hbefore, hafter⟩ := (entryDelta_eq_some snapshot.path key d).mp hkey
    rw [hbefore, hafter]
    exact ⟨hne, hpath⟩
  · intro deltas hnodup hencodable
    have hinj : ∀ d ∈ deltas, ∀ e ∈ deltas, d.declaration = e.declaration → d = e :=
      fun d hd e he => declaration_injective (hencodable d hd) (hencodable e he)
    exact (verify_eq_none deltas _).mpr ⟨List.Nodup.map_on hinj hnodup, rfl, hencodable⟩

/-- A manifest in which a lone surrogate is a version, and its delta. -/
def surrogateManifest : GitCandidateFile where
  path := codes "package.json"
  baseContent := none
  headContent := some (codes "\x7b\"dependencies\":\x7b\"a\":\"\\ud800\"\x7d\x7d")

def surrogateDelta : DependencyDelta where
  path := codes "package.json"
  group := codes "dependencies"
  package := codes "a"
  before := none
  after := some [0xD800]

/-- To declare that delta is not accepted. -/
theorem surrogate_not_accepted :
    ∃ (r : Readers) (platform : Platform),
      dependencyDeltas r platform surrogateManifest = .ok [surrogateDelta] ∧ [surrogateDelta.declaration].Nodup ∧
        verifyDependencyDeclarations r [surrogateDelta] [surrogateDelta.declaration] =
          some "dependency_authorization_is_ambiguous" :=
  ⟨⟨fun _ => none, some, id, some⟩, ⟨false, id⟩, by decide +kernel, List.nodup_singleton _, by decide +kernel⟩

end ParallelForge.Policy
