import ParallelForge.Evidence.Records

/-!
# What a manifest is written of

Code points, integers and keys that no object has twice: such a value is read back as it
was, where its integers can be printed.
-/

namespace ParallelForge.Evidence
open Base Calendar PyJson

/-! ## Texts -/

theorem isText_nil : isText [] := fun c hc => by cases hc

theorem isText_cons {c : ℕ} {s : Str} (hc : c < 0x110000) (hs : isText s) : isText (c :: s) :=
  List.forall_mem_cons.mpr ⟨hc, hs⟩

theorem isText_append {s t : Str} (hs : isText s) (ht : isText t) : isText (s ++ t) :=
  List.forall_mem_append.mpr ⟨hs, ht⟩

theorem isText_hex {s : Str} (h : s.all isHexLetter = true) : isText s := by
  intro c hc
  have hletter := List.all_eq_true.mp h c hc
  simp only [isHexLetter, Bool.or_eq_true, Bool.and_eq_true, decide_eq_true_eq] at hletter
  omega

theorem isText_letters {s : Str} (h : isLetters s = true) : isText s := by
  intro c hc
  exact of_decide_eq_true (List.all_eq_true.mp h c hc)

theorem isText_scalars {s : Str} (h : s.all Codec.isScalar = true) : isText s := by
  intro c hc
  have hscalar := List.all_eq_true.mp h c hc
  simp only [Codec.isScalar, Bool.or_eq_true, Bool.and_eq_true, decide_eq_true_eq] at hscalar
  omega

theorem isText_uuidText (id : UUID) : isText (uuidText id) := by
  have hhex : isText (hexText id) := isText_hex (List.all_eq_true.mpr (isHexLetter_hexText id))
  have hpart : ∀ part : Str, part.Sublist (hexText id) → isText part := fun part hsub c hc => hhex c (hsub.subset hc)
  have hhyphen : isText [45] := isText_cons (by omega) isText_nil
  unfold uuidText
  refine isText_append (isText_append (isText_append (isText_append (isText_append (isText_append (isText_append
    (isText_append (hpart _ (List.take_sublist 8 _)) hhyphen) ?_) hhyphen) ?_) hhyphen) ?_) hhyphen) ?_
  · exact hpart _ ((List.take_sublist 4 _).trans (List.drop_sublist 8 _))
  · exact hpart _ ((List.take_sublist 4 _).trans (List.drop_sublist 12 _))
  · exact hpart _ ((List.take_sublist 4 _).trans (List.drop_sublist 16 _))
  · exact hpart _ (List.drop_sublist 20 _)

theorem isText_fixed (w n : ℕ) : isText (fixed w n) := by
  intro c hc
  have hdigit := List.all_eq_true.mp (isDigit_fixed w n) c hc
  simp only [Json.isDigit, Bool.and_eq_true, decide_eq_true_eq] at hdigit
  omega

theorem isText_isoUtc (t : ℕ) : isText (isoUtc t) := by
  have hmicros : isText (if t % 1000000 = 0 then [] else 46 :: fixed 6 (t % 1000000)) := by
    split
    · exact isText_nil
    · exact isText_cons (by omega) (isText_fixed 6 _)
  have hpart : ∀ (w n c : ℕ) (rest : Str), c < 0x110000 → isText rest → isText (fixed w n ++ c :: rest) :=
    fun w n c rest hc hrest => isText_append (isText_fixed w n) (isText_cons hc hrest)
  unfold isoUtc
  apply hpart 4 _ 45 _ (by omega)
  apply hpart 2 _ 45 _ (by omega)
  apply hpart 2 _ 84 _ (by omega)
  apply hpart 2 _ 58 _ (by omega)
  apply hpart 2 _ 58 _ (by omega)
  exact isText_append (isText_fixed 2 _) (isText_append hmicros (isText_codes "+00:00"))

/-! ## Values -/

/-- Written and read back, where its integers can be printed. -/
def Sound (v : PyJson) : Prop := printable v = true → Plain false v

theorem printable_arr {vs : List PyJson} (h : printable (.arr vs) = true) : ∀ v ∈ vs, printable v = true := by
  intro v hv
  exact List.all_eq_true.mpr (forall_parts_arr (List.all_eq_true.mp h) v hv)

theorem printable_obj {ms : List (Str × PyJson)} (h : printable (.obj ms) = true) : ∀ p ∈ ms, printable p.2 = true := by
  intro p hp
  exact List.all_eq_true.mpr (forall_parts_obj (List.all_eq_true.mp h) p hp)

theorem sound_null : Sound .null := fun _ => trivial

theorem sound_str {s : Str} (h : isText s) : Sound (.str s) := fun _ => h

theorem sound_int (z : ℤ) : Sound (.int z) := by
  intro h
  have hdigits := List.all_eq_true.mp h (.int z) (parts_self _)
  rw [Plain]
  exact of_decide_eq_true hdigits

theorem sound_arr {vs : List PyJson} (h : ∀ v ∈ vs, Sound v) : Sound (.arr vs) := by
  intro hprint
  rw [Plain, plainItems_iff]
  exact fun v hv => h v hv (printable_arr hprint v hv)

theorem sound_obj {entries : Entries} (hn : (entries.map Prod.fst).Nodup) (h : ∀ p ∈ entries, Sound p.2) :
    Sound (.obj (dict entries)) := by
  intro hprint
  have hkey : ∀ p ∈ dict entries, isText p.1 := by
    intro p hp
    obtain ⟨q, -, rfl⟩ := List.mem_map.mp hp
    exact isText_codes q.1
  have hsame : (dict entries).map (fun p => rejoin false p.1) = (dict entries).map Prod.fst :=
    List.map_congr_left fun p hp => rejoin_open (hkey p hp)
  rw [Plain, plainMembers_iff, hsame]
  refine ⟨keys_dict entries hn, fun p hp => ⟨hkey p hp, ?_⟩⟩
  have hplain := printable_obj hprint p hp
  obtain ⟨q, hq, rfl⟩ := List.mem_map.mp hp
  exact h q hq hplain

theorem sound_orNull {β : Type} {f : β → PyJson} (h : ∀ b, Sound (f b)) (o : Option β) : Sound (orNull f o) := by
  cases o with
  | none => exact sound_null
  | some b => exact h b

theorem sound_idText (id : NonNil) : Sound (idText id) := sound_str (isText_uuidText _)

theorem sound_timeText (a : Aware) : Sound (timeText a) := sound_str (isText_isoUtc _)

theorem sound_word (w : String) : Sound (word w) := sound_str (isText_codes w)

theorem sound_hex {n : ℕ} (d : Hex n) : Sound (.str d.val) := sound_str (isText_hex d.property.2)

theorem sound_name (n : Name) : Sound (.str n.val) := sound_str (isText_letters n.property.1)

theorem sound_nonBlank (s : NonBlank) : Sound (.str s.val) := sound_str (isText_scalars s.property.1)

theorem sound_texts (l : Texts) : Sound (.arr (l.val.map .str)) := by
  apply sound_arr
  intro v hv
  obtain ⟨s, hs, rfl⟩ := List.mem_map.mp hv
  exact sound_str (isText_letters (l.property.2.1 s hs).1)

/-! ## Manifests -/

theorem Member.sound (m : Member) (version : ℤ) : Sound (.obj (dict (m.canonical version))) := by
  apply sound_obj (m.canonical_keys version).1
  have hreceipt : Sound (orNull (fun d : Hex 64 => .str d.val) m.controllerReceiptDigest) := sound_orNull sound_hex _
  have hexit : Sound (orNull .int m.exitCode) := sound_orNull sound_int _
  unfold Member.canonical
  split
  · simp [sound_hex, sound_name, sound_int, sound_timeText, sound_idText, sound_word, hreceipt, hexit]
  · simp [sound_hex, sound_name, sound_int, sound_timeText, sound_idText, sound_word, hexit]

theorem ValidationManifest.sound (m : ValidationManifest) : Sound (.obj (dict m.canonical)) := by
  apply sound_obj m.canonical_keys.1
  have hmembers : Sound (.arr (m.members.val.map fun member => .obj (dict (member.canonical m.schemaVersion.val)))) := by
    apply sound_arr
    intro v hv
    obtain ⟨member, -, rfl⟩ := List.mem_map.mp hv
    exact member.sound _
  have hcandidate : Sound (orNull (fun d : Hex 64 => .str d.val) m.candidateTreeDigest) := sound_orNull sound_hex _
  have hprior : Sound (orNull idText m.priorReviewEvidenceSetId) := sound_orNull sound_idText _
  unfold ValidationManifest.canonical
  split
  · simp [sound_hex, sound_int, sound_idText, sound_word, hmembers, hcandidate, hprior]
  · simp [sound_hex, sound_int, sound_idText, sound_word, hmembers, hprior]

theorem ReviewFinding.sound (f : ReviewFinding) : Sound (.obj (dict f.canonical)) := by
  apply sound_obj f.canonical_keys.1
  have hresolution : Sound (orNull (fun s : Letters => .str s.val) f.proposedResolution) :=
    sound_orNull (fun s => sound_str (isText_letters s.property)) _
  have hresolved : Sound (orNull timeText f.resolvedAt) := sound_orNull sound_timeText _
  simp [ReviewFinding.canonical, sound_nonBlank, sound_int, sound_word, hresolution, hresolved]

theorem ReviewOutput.sound (r : ReviewOutput) : Sound (.obj (dict r.canonical)) := by
  apply sound_obj r.canonical_keys.1
  have hfindings : Sound (.arr (r.findings.val.map fun f => .obj (dict f.canonical))) := by
    apply sound_arr
    intro v hv
    obtain ⟨f, -, rfl⟩ := List.mem_map.mp hv
    exact f.sound
  have hsummary : Sound (.str r.summary.val) := sound_str (isText_scalars r.summary.property.1)
  simp [ReviewOutput.canonical, sound_texts, sound_word, hfindings, hsummary]

theorem ReviewManifest.sound (m : ReviewManifest) : Sound (.obj (dict m.canonical)) := by
  apply sound_obj m.canonical_keys.1
  simp [ReviewManifest.canonical, sound_hex, sound_int, sound_idText, sound_word, m.review.sound]

end ParallelForge.Evidence
