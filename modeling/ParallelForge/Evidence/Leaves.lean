import ParallelForge.Evidence.Codec
import Mathlib.Data.Nat.Digits.Lemmas

/-!
# What the readers give back

A field is read alike from the state of an instance and from what is written of it, a
time from what is written as the same time in UTC.
-/

namespace ParallelForge.Evidence
open Base Calendar PyJson

/-! ## Lookups -/

theorem field_state (entries : List (String × Raw)) (key : String) :
    Fields.field (RawEntries.fields entries) key = entries.lookup key := lookup_codes entries key

/-- The fields of an object that was written with sorted keys and read back. -/
def written (entries : Entries) : Fields := (sortedMembers (dict entries)).map fun p => (p.1, .json p.2)

theorem keys_dict (entries : Entries) (hn : (entries.map Prod.fst).Nodup) : ((dict entries).map Prod.fst).Nodup := by
  have hcodes : (dict entries).map Prod.fst = (entries.map Prod.fst).map codes := by
    rw [dict, List.map_map, List.map_map]
    rfl
  rw [hcodes]
  exact hn.map fun _ _ => codes_injective

theorem lookup_written (entries : Entries) (hn : (entries.map Prod.fst).Nodup) (key : String) :
    (sortedMembers (dict entries)).lookup (codes key) = (entries.lookup key).map sortKeys := by
  rw [lookup_sortedMembers _ (keys_dict entries hn)]
  exact congrArg (Option.map sortKeys) (lookup_codes entries key)

theorem field_written (entries : Entries) (hn : (entries.map Prod.fst).Nodup) (key : String) :
    (written entries).field key = (entries.lookup key).map fun v => .json (sortKeys v) := by
  rw [written, Fields.field, PyJson.lookup_map, lookup_written entries hn, Option.map_map]
  rfl

theorem within_state (entries : List (String × Raw)) (keys : List String) (h : ∀ p ∈ entries, p.1 ∈ keys) :
    (RawEntries.fields entries).within keys = true := by
  rw [Fields.within, List.all_eq_true]
  intro p hp
  obtain ⟨q, hq, rfl⟩ := List.mem_map.mp hp
  exact List.contains_iff_mem.mpr (List.mem_map_of_mem (h q hq))

theorem within_written (entries : Entries) (keys : List String) (h : ∀ p ∈ entries, p.1 ∈ keys) :
    (written entries).within keys = true := by
  rw [Fields.within, List.all_eq_true]
  intro p hp
  obtain ⟨q, hq, rfl⟩ := List.mem_map.mp hp
  have hkey : q.1 ∈ (dict entries).map Prod.fst :=
    (sortedMembers_keys (dict entries)).mem_iff.mp (List.mem_map_of_mem hq)
  rw [dict, List.map_map] at hkey
  obtain ⟨r, hr, hcodes⟩ := List.mem_map.mp hkey
  exact List.contains_iff_mem.mpr (hcodes ▸ List.mem_map_of_mem (h r hr))

/-! ## Identifiers -/

theorem isHexLetter_hexDigit (d : ℕ) (h : d < 16) : isHexLetter (hexDigit d) = true := by
  unfold isHexLetter hexDigit
  split
  · simp
    omega
  · simp
    omega

theorem isHexLetter_hexText (id : UUID) : ∀ c ∈ hexText id, isHexLetter c = true := by
  intro c hc
  unfold hexText at hc
  rcases List.mem_append.mp hc with hzero | hdigit
  · rw [(List.mem_replicate.mp hzero).2]
    rfl
  · obtain ⟨d, hd, rfl⟩ := List.mem_map.mp hdigit
    exact isHexLetter_hexDigit d (Nat.digits_lt_base (by omega) (List.mem_reverse.mp hd))

theorem length_hexText (id : UUID) (h : id < 2 ^ 128) : (hexText id).length = 32 := by
  have hdigits : (Nat.digits 16 id).length ≤ 32 := (Nat.digits_length_le_iff (by omega) id).mpr (by omega)
  simp only [hexText, List.length_append, List.length_replicate, List.length_map, List.length_reverse]
  omega

/- A group of digits in front of a hyphen. -/
theorem isGrouped_group (n m : ℕ) (ns : List ℕ) (group rest : Str) (hn : group.length = n)
    (hgroup : ∀ c ∈ group, isHexLetter c = true) (hrest : isGrouped (m :: ns) rest = true) :
    isGrouped (n :: m :: ns) (group ++ 45 :: rest) = true := by
  have htake : (group ++ 45 :: rest).take n = group := by
    rw [← hn]
    exact List.take_left
  have hdrop : (group ++ 45 :: rest).drop n = 45 :: rest := by
    rw [← hn]
    exact List.drop_left
  have hnext : (group ++ 45 :: rest).drop (n + 1) = rest := by rw [← List.drop_drop, hdrop, List.drop_one, List.tail_cons]
  simp only [isGrouped, htake, hdrop, hnext, hn, hrest, List.head?_cons, beq_self_eq_true, Bool.true_and, Bool.and_true]
  exact List.all_eq_true.mpr hgroup

theorem isGrouped_uuidText (id : Uuid) : isGrouped [8, 4, 4, 4, 12] (uuidText id.val) = true := by
  have hlength := length_hexText id.val id.isLt
  have hpart : ∀ part : Str, part.Sublist (hexText id.val) → ∀ c ∈ part, isHexLetter c = true :=
    fun part hsub c hc => isHexLetter_hexText id.val c (hsub.subset hc)
  have htext : uuidText id.val = (hexText id.val).take 8 ++ 45 :: (((hexText id.val).drop 8).take 4 ++
      45 :: (((hexText id.val).drop 12).take 4 ++ 45 :: (((hexText id.val).drop 16).take 4 ++
        45 :: (hexText id.val).drop 20))) := by
    simp only [uuidText, List.append_assoc, List.cons_append, List.nil_append]
  have hlast : isGrouped [12] ((hexText id.val).drop 20) = true := by
    rw [isGrouped, Bool.and_eq_true, beq_iff_eq, List.length_drop, hlength, List.all_eq_true]
    exact ⟨rfl, hpart _ (List.drop_sublist 20 _)⟩
  rw [htext]
  apply isGrouped_group 8 4 _ _ _ (by simp [hlength]) (hpart _ (List.take_sublist 8 _))
  apply isGrouped_group 4 4 _ _ _ (by simp [hlength]) (hpart _ ((List.take_sublist 4 _).trans (List.drop_sublist 8 _)))
  apply isGrouped_group 4 4 _ _ _ (by simp [hlength]) (hpart _ ((List.take_sublist 4 _).trans (List.drop_sublist 12 _)))
  exact isGrouped_group 4 12 _ _ _ (by simp [hlength])
    (hpart _ ((List.take_sublist 4 _).trans (List.drop_sublist 16 _))) hlast

theorem parseUuid_uuidText (id : Uuid) : parseUuid (uuidText id.val) = .ok id := by
  have hvalue : Nat.ofDigits 16 (((uuidText id.val).filter fun c => c ≠ 45).reverse.map hexDigitValue) = id.val := by
    rw [uuidText_filter, hexText_value]
  unfold parseUuid
  split
  · next h =>
    rw [Except.ok.injEq, Fin.ext_iff]
    dsimp only
    exact hvalue
  · next h =>
    refine absurd ⟨isGrouped_uuidText id, ?_⟩ h
    rw [hvalue]
    exact id.isLt

theorem check_val {α : Type} {p : α → Prop} [DecidablePred p] (a : {a : α // p a}) : check p a.val = .ok a :=
  dif_pos a.property

theorem nonNilUuid_state (id : NonNil) : nonNilUuid (.uuid id.val) = .ok id := check_val id

theorem nonNilUuid_text (id : NonNil) : nonNilUuid (.json (sortKeys (idText id))) = .ok id := by
  rw [idText, sortKeys, nonNilUuid, parseUuid_uuidText]
  exact check_val id

/-! ## Texts, numbers and times -/

theorem name_text (n : Name) : name (textRaw n.val) = .ok n := check_val n

theorem hex_text {n : ℕ} (d : Hex n) : hex n (textRaw d.val) = .ok d := check_val d

theorem letters_text (s : Letters) : letters (textRaw s.val) = .ok s := check_val s

theorem nonBlank_text (s : NonBlank) : nonBlank (textRaw s.val) = .ok s := check_val s

theorem summaryOf_text (s : Summary) : summaryOf (textRaw s.val) = .ok s := check_val s

theorem positive_int (z : Positive) : positive (.json (.int z.val)) = .ok z := check_val z

theorem policyVersionOf_int (z : PolicyVersion) : policyVersionOf (.json (.int z.val)) = .ok z := check_val z

theorem schemaVersionOf_int (z : {z : ℤ // z = 1 ∨ z = 2}) : schemaVersionOf (.json (.int z.val)) = .ok z := check_val z

theorem literal_word (w : String) : literal w (textRaw (codes w)) = .ok () := by
  rw [literal, textRaw, Raw.text]
  exact if_pos rfl

theorem status_text (s : EvidenceStatus) :
    enumerated EvidenceStatus.all EvidenceStatus.value (textRaw (codes s.value)) = .ok s := by
  cases s with
  | passed => rfl
  | failed => rfl
  | skipped => rfl
  | cancelled => rfl

theorem severity_text (s : FindingSeverity) :
    enumerated FindingSeverity.all FindingSeverity.value (textRaw (codes s.value)) = .ok s := by
  cases s with
  | blocker => rfl
  | major => rfl
  | minor => rfl
  | suggestion => rfl

theorem decision_text (d : ReviewDecision) :
    enumerated ReviewDecision.all ReviewDecision.value (textRaw (codes d.value)) = .ok d := by
  cases d with
  | approve => rfl
  | requestChanges => rfl
  | blocked => rfl

theorem textsOf_state (l : Texts) : textsOf (.list (l.val.map textRaw)) = .ok l := by
  have hitems : (l.val.map textRaw).mapM Raw.text = .ok l.val := by
    rw [mapM_eq_ok, List.forall₂_map_left_iff, List.forall₂_same]
    exact fun s _ => rfl
  rw [textsOf, Raw.items]
  simp only [bind, Except.bind, hitems]
  exact check_val l

theorem textsOf_written (l : Texts) : textsOf (.json (sortKeys (.arr (l.val.map .str)))) = .ok l := by
  have hitems : (Raw.json (sortKeys (.arr (l.val.map .str)))).items = (Raw.list (l.val.map textRaw)).items := by
    rw [sortKeys_arr, Raw.items, Raw.items, List.map_map, List.map_map]
    rfl
  rw [← textsOf_state l, textsOf, textsOf, hitems]

section times
variable (other : Str → Option Moment)

theorem aware_moment (a : Aware) : aware a.moment = .ok a := by
  obtain ⟨moment, t, hknown⟩ := a
  rw [aware]
  split
  · next u hu =>
    have : t = u := Option.some.inj (hknown.symm.trans hu)
    subst this
    rfl
  · next hnone =>
    rw [hknown] at hnone
    cases hnone

theorem awareTime_state (a : Aware) : awareTime other (.datetime a.moment) = .ok a := aware_moment a

theorem awareTime_written (a : Aware) : awareTime other (.json (timeText a)) = .ok a.utc := by
  have hlt := instant_lt a.moment a.instant a.known
  rw [timeText, awareTime, fromIsoformat_isoUtc other a.instant hlt]
  exact aware_moment a.utc

end times

/-! ## Fields of a record -/

section records
variable {α β : Type} {read : Raw → Except Str β}

theorem needed_of {field : Option Raw} {value : Raw} {b : β} (hfield : field = some value) (hread : read value = .ok b) :
    needed field read = .ok b := by
  rw [hfield]
  exact hread

theorem defaulted_of {field : Option Raw} {value : Raw} {b default : β} (hfield : field = some value)
    (hread : read value = .ok b) : defaulted default field read = .ok b := by
  rw [hfield]
  exact hread

theorem defaulted_none {field : Option Raw} {b default : β} (hfield : field = none) (hdefault : default = b) :
    defaulted default field read = .ok b := by
  rw [hfield, ← hdefault]
  rfl

theorem state_some {entries : List (String × Raw)} {key : String} {value : Raw} (h : entries.lookup key = some value) :
    Fields.field (RawEntries.fields entries) key = some value := (field_state entries key).trans h

theorem written_some {entries : Entries} (hn : (entries.map Prod.fst).Nodup) {key : String} {value : PyJson}
    (h : entries.lookup key = some value) : (written entries).field key = some (.json (sortKeys value)) := by
  rw [field_written entries hn, h]
  rfl

theorem written_none {entries : Entries} (hn : (entries.map Prod.fst).Nodup) {key : String}
    (h : entries.lookup key = none) : (written entries).field key = none := by
  rw [field_written entries hn, h]
  rfl

/- An entry that only some versions write. -/
theorem lookup_optional (front optional back : List (String × α)) (key : String) (h : optional.lookup key = none) :
    (front ++ optional ++ back).lookup key = (front ++ back).lookup key := by
  rw [List.lookup_append, List.lookup_append, h, Option.or_none, List.lookup_append]

theorem nullable_some {value : Raw} {b : β} (hread : read value = .ok b) (hnull : value ≠ .json .null) :
    nullable read value = .ok (some b) := by
  have hsome : nullable read value = (read value).map some := by
    rw [nullable]
    exact hnull
  rw [hsome, hread]
  rfl

theorem nullable_state (f : α → Raw) (g : α → β) (hread : ∀ a, read (f a) = .ok (g a)) (hnull : ∀ a, f a ≠ .json .null)
    (o : Option α) : nullable read (nullRaw f o) = .ok (o.map g) := by
  cases o with
  | none => rfl
  | some a => exact nullable_some (hread a) (hnull a)

theorem nullable_written (f : α → PyJson) (g : α → β) (hread : ∀ a, read (.json (sortKeys (f a))) = .ok (g a))
    (hnull : ∀ a, sortKeys (f a) ≠ .null) (o : Option α) :
    nullable read (.json (sortKeys (orNull f o))) = .ok (o.map g) := by
  cases o with
  | none => rfl
  | some a => exact nullable_some (hread a) fun h => hnull a (Raw.json.inj h)

/- A record is read when its keys are known and its fields are read. -/
theorem record_of {value : Raw} {fields : Fields} {keys : List String} {build : (String → Option Raw) → Except Str β}
    {b : β} (hmembers : value.members = .ok fields) (hkeys : fields.within keys = true)
    (hbuild : build fields.field = .ok b) :
    (do
      let fields ← value.members
      require (fields.within keys = true) failed
      build fields.field) = Except.ok b := by
  rw [hmembers]
  show (require (fields.within keys = true) failed >>= fun _ => build fields.field) = .ok b
  exact (require_bind_eq_ok _ _ _ _).mpr ⟨hkeys, hbuild⟩

end records

theorem members_written (entries : Entries) :
    (Raw.json (sortKeys (.obj (dict entries)))).members = .ok (written entries) := by
  rw [sortKeys_obj]
  rfl

end ParallelForge.Evidence
