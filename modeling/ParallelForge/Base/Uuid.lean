import ParallelForge.Base.Json
import ParallelForge.Base.Text
import Mathlib.Data.Nat.Digits.Defs

/-!
# The text of a UUID

Thirty-two hexadecimal digits in five groups. The text determines the UUID, so
sorting by it leaves no ties.
-/

namespace ParallelForge.Base

/-- A digit of `%x`. -/
def hexDigit (d : ℕ) : ℕ := if d < 10 then 48 + d else 87 + d

/-- `'%032x' % int`. -/
def hexText (id : UUID) : Str :=
  let digits := (Nat.digits 16 id).reverse.map hexDigit
  List.replicate (32 - digits.length) 48 ++ digits

/-- `str(UUID)`. -/
def uuidText (id : UUID) : Str :=
  let hex := hexText id
  hex.take 8 ++ [45] ++ (hex.drop 8).take 4 ++ [45] ++ (hex.drop 12).take 4 ++ [45] ++
    (hex.drop 16).take 4 ++ [45] ++ hex.drop 20

def hexDigitValue (c : ℕ) : ℕ := if c < 58 then c - 48 else c - 87

theorem hexDigitValue_hexDigit (d : ℕ) (h : d < 16) : hexDigitValue (hexDigit d) = d := by
  unfold hexDigitValue hexDigit
  split
  · split
    · omega
    · omega
  · split
    · omega
    · omega

theorem hexDigit_ne_hyphen (d : ℕ) : hexDigit d ≠ 45 := by
  unfold hexDigit
  split
  · omega
  · omega

/- The digits, lowest first, with the zeros the padding added. -/
theorem hexText_value (id : UUID) :
    Nat.ofDigits 16 ((hexText id).reverse.map hexDigitValue) = id := by
  have hdigits : ((Nat.digits 16 id).map hexDigit).map hexDigitValue = Nat.digits 16 id := by
    rw [List.map_map]
    refine (List.map_congr_left fun d hd => ?_).trans (List.map_id _)
    exact hexDigitValue_hexDigit d (Nat.digits_lt_base (by omega) hd)
  have htext : ((hexText id).reverse.map hexDigitValue) =
      Nat.digits 16 id ++ List.replicate (32 - ((Nat.digits 16 id).reverse.map hexDigit).length) 0 := by
    unfold hexText
    rw [List.reverse_append, List.reverse_replicate, List.map_reverse, List.reverse_reverse,
      List.map_append, hdigits, List.map_replicate]
    rfl
  rw [htext, Nat.ofDigits_append_replicate_zero, Nat.ofDigits_digits]

theorem hexText_no_hyphen (id : UUID) (c : ℕ) (hc : c ∈ hexText id) : c ≠ 45 := by
  unfold hexText at hc
  rcases List.mem_append.mp hc with hzero | hdigit
  · rw [(List.mem_replicate.mp hzero).2]
    omega
  · obtain ⟨d, -, rfl⟩ := List.mem_map.mp hdigit
    exact hexDigit_ne_hyphen d

/- Without its hyphens the text is the digits. -/
theorem uuidText_filter (id : UUID) : (uuidText id).filter (fun c => c ≠ 45) = hexText id := by
  have hpart : ∀ part : Str, (∀ c ∈ part, c ∈ hexText id) →
      part.filter (fun c => c ≠ 45) = part := by
    intro part hsub
    rw [List.filter_eq_self]
    intro c hc
    simpa using hexText_no_hyphen id c (hsub c hc)
  have htake : ∀ m n, ∀ c ∈ ((hexText id).drop m).take n, c ∈ hexText id := by
    intro m n c hc
    exact List.mem_of_mem_drop (List.mem_of_mem_take hc)
  have hhyphen : ([45] : Str).filter (fun c => c ≠ 45) = [] := rfl
  have hjoin : (hexText id).take 8 ++ ((hexText id).drop 8).take 4 ++
      ((hexText id).drop 12).take 4 ++ ((hexText id).drop 16).take 4 ++ (hexText id).drop 20 =
        hexText id := by
    have hnext : ∀ m n, ((hexText id).drop m).take n ++ (hexText id).drop (m + n) =
        (hexText id).drop m := by
      intro m n
      rw [← List.drop_drop, List.take_append_drop]
    rw [List.append_assoc, hnext 16 4, List.append_assoc, hnext 12 4, List.append_assoc, hnext 8 4,
      List.take_append_drop]
  unfold uuidText
  simp only [List.filter_append, hhyphen, List.append_nil]
  rw [hpart _ (fun c hc => List.mem_of_mem_take hc), hpart _ (htake 8 4), hpart _ (htake 12 4),
    hpart _ (htake 16 4), hpart _ (fun c hc => List.mem_of_mem_drop hc), hjoin]

theorem uuidText_injective (a b : UUID) (h : uuidText a = uuidText b) : a = b := by
  have hhex : hexText a = hexText b := by rw [← uuidText_filter a, ← uuidText_filter b, h]
  rw [← hexText_value a, ← hexText_value b, hhex]

end ParallelForge.Base
