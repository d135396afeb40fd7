import Mathlib.Data.List.Basic

/-!
# The bounded capture of a pipe (`tools/process.py`)

A pipe is drained chunk by chunk. The first half of the limit is kept as the
head of the stream, the other half rolls over its end.
-/

namespace ParallelForge.Tools

abbrev Bytes := List UInt8

/-- `l[-n:]`, where `-0` is the front of the list. -/
def lastBytes (n : ℕ) (l : Bytes) : Bytes := if n = 0 then l else l.drop (l.length - n)

/-- `_BoundedStream`; what its reads raise is left out. -/
structure BoundedStream where
  limit : ℕ
  data : Bytes
  originalByteCount : ℕ
  deriving DecidableEq

namespace BoundedStream

def init (limit : ℕ) : BoundedStream := ⟨limit, [], 0⟩

def headLimit (s : BoundedStream) : ℕ := s.limit / 2

/-- The buffer after a chunk. -/
def extend (s : BoundedStream) (chunk : Bytes) : Bytes :=
  let headNeeded := s.headLimit - s.data.length
  let data := s.data ++ chunk.take headNeeded
  let remainder := chunk.drop headNeeded
  if remainder = [] then data
  else
    let tail := lastBytes (s.limit - s.headLimit) remainder
    let discard := data.length + tail.length - s.limit
    data.take s.headLimit ++ data.drop (s.headLimit + discard) ++ tail

/-- One turn of `drain`. -/
def absorb (s : BoundedStream) (chunk : Bytes) : BoundedStream :=
  { s with data := s.extend chunk, originalByteCount := s.originalByteCount + chunk.length }

/-- `drain`, on what the reads of the pipe return; an empty one is its end. -/
def drain (s : BoundedStream) : List Bytes → BoundedStream
  | [] => s
  | chunk :: rest => if chunk = [] then s else (s.absorb chunk).drain rest

def truncated (s : BoundedStream) : Bool := s.limit < s.originalByteCount

end BoundedStream

/-- What is to be kept of a stream. -/
def retained (limit : ℕ) (stream : Bytes) : Bytes :=
  if stream.length ≤ limit then stream
  else stream.take (limit / 2) ++ stream.drop (stream.length - (limit - limit / 2))

theorem retained_fits (limit : ℕ) (stream : Bytes) (h : stream.length ≤ limit) :
    retained limit stream = stream := if_pos h

theorem retained_over (limit : ℕ) (stream : Bytes) (h : limit < stream.length) :
    retained limit stream =
      stream.take (limit / 2) ++ stream.drop (stream.length - (limit - limit / 2)) :=
  if_neg (by omega)

theorem length_retained (limit : ℕ) (stream : Bytes) :
    (retained limit stream).length = min limit stream.length := by
  by_cases h : stream.length ≤ limit
  · rw [retained_fits limit stream h, Nat.min_eq_right h]
  · rw [retained_over limit stream (by omega), List.length_append, List.length_take, List.length_drop]
    omega

/- What was dropped of the front is not missed later. -/
theorem retained_append (limit : ℕ) (stream chunk : Bytes) :
    retained limit (retained limit stream ++ chunk) = retained limit (stream ++ chunk) := by
  by_cases h : stream.length ≤ limit
  · rw [retained_fits limit stream h]
  have hover : limit < stream.length := by omega
  have hlen := length_retained limit stream
  by_cases hc : chunk = []
  · subst hc
    rw [List.append_nil, List.append_nil, retained_fits _ _ (by omega)]
  have hpos := List.length_pos_of_ne_nil hc
  rw [retained_over _ (retained limit stream ++ chunk) (by rw [List.length_append]; omega),
    retained_over _ (stream ++ chunk) (by rw [List.length_append]; omega)]
  congr 1
  · rw [retained_over _ _ hover, List.take_append_of_le_length (by rw [List.length_append, List.length_take]; omega),
      List.take_append_of_le_length (by rw [List.length_take]; omega), List.take_take,
      List.take_append_of_le_length (by omega), Nat.min_self]
  · rw [List.length_append, List.length_append, hlen, retained_over _ _ hover, List.append_assoc,
      List.drop_append, List.length_take, Nat.min_eq_left (by omega),
      List.drop_eq_nil_of_le (by rw [List.length_take]; omega), List.nil_append, List.drop_append,
      List.drop_append, List.drop_drop, List.length_drop]
    congr 2 <;> omega

theorem lastBytes_eq (n : ℕ) (l : Bytes) (hn : 0 < n) : lastBytes n l = l.drop (l.length - n) :=
  if_neg (by omega)

namespace BoundedStream

/- The tail of the chunk replaces as much of the rolling half as it needs. -/
theorem roll_eq (limit : ℕ) (front rest : Bytes) (hl : 1 ≤ limit) (hhead : limit / 2 ≤ front.length)
    (hfits : front.length ≤ limit) (tail : Bytes) (htail : lastBytes (limit - limit / 2) rest = tail) :
    front.take (limit / 2) ++ front.drop (limit / 2 + (front.length + tail.length - limit)) ++ tail =
      retained limit (front ++ rest) := by
  rw [lastBytes_eq _ _ (by omega)] at htail
  have hlen : tail.length = rest.length - (rest.length - (limit - limit / 2)) := by
    rw [← htail, List.length_drop]
  by_cases hover : front.length + rest.length ≤ limit
  · have hrest : rest.length - (limit - limit / 2) = 0 := by omega
    rw [hrest, List.drop_zero] at htail
    rw [retained_fits _ _ (by rw [List.length_append]; omega), ← htail,
      Nat.sub_eq_zero_of_le hover, Nat.add_zero, List.take_append_drop]
  · rw [retained_over _ _ (by rw [List.length_append]; omega), List.take_append_of_le_length hhead,
      List.append_assoc, List.drop_append, List.length_append]
    by_cases hlong : rest.length ≤ limit - limit / 2
    · rw [Nat.sub_eq_zero_of_le hlong] at hlen
      rw [show limit / 2 + (front.length + tail.length - limit) =
          front.length + rest.length - (limit - limit / 2) by omega, ← htail,
        Nat.sub_eq_zero_of_le (show _ ≤ front.length by omega), Nat.sub_eq_zero_of_le hlong]
    · rw [List.drop_eq_nil_of_le (show front.length ≤ _ by omega),
        List.drop_eq_nil_of_le (show front.length ≤ _ by omega), ← htail]
      congr 3
      omega

/-- The buffer after a chunk is what is to be kept of the buffer and the chunk. -/
theorem extend_eq (s : BoundedStream) (chunk : Bytes) (hl : 1 ≤ s.limit)
    (hfits : s.data.length ≤ s.limit) : s.extend chunk = retained s.limit (s.data ++ chunk) := by
  unfold extend headLimit
  by_cases hrest : chunk.drop (s.limit / 2 - s.data.length) = []
  · have hlen : chunk.length ≤ s.limit / 2 - s.data.length := List.drop_eq_nil_iff.mp hrest
    simp only [hrest, if_pos]
    rw [List.take_of_length_le hlen]
    by_cases hc : chunk = []
    · rw [hc, List.append_nil, retained_fits _ _ hfits]
    · have := List.length_pos_of_ne_nil hc
      rw [retained_fits _ _ (by rw [List.length_append]; omega)]
  · have hlen : s.limit / 2 - s.data.length < chunk.length := by
      by_contra hge
      exact hrest (List.drop_eq_nil_of_le (by omega))
    simp only [if_neg hrest]
    rw [roll_eq s.limit _ (chunk.drop (s.limit / 2 - s.data.length)) hl ?_ ?_ _ rfl, List.append_assoc,
      List.take_append_drop]
    · rw [List.length_append, List.length_take]
      omega
    · rw [List.length_append, List.length_take]
      omega

/-- The buffer holds what is to be kept of the stream so far. -/
structure Holds (s : BoundedStream) (stream : Bytes) : Prop where
  data : s.data = retained s.limit stream
  count : s.originalByteCount = stream.length

theorem holds_init (limit : ℕ) : (init limit).Holds [] :=
  ⟨by simp [init, retained], rfl⟩

theorem Holds.absorb {s : BoundedStream} {stream : Bytes} (chunk : Bytes) (hl : 1 ≤ s.limit)
    (h : s.Holds stream) : (s.absorb chunk).Holds (stream ++ chunk) := by
  have hfits : s.data.length ≤ s.limit := by
    rw [h.data, length_retained]
    omega
  refine ⟨?_, ?_⟩
  · show s.extend chunk = retained s.limit (stream ++ chunk)
    rw [extend_eq s chunk hl hfits, h.data, retained_append]
  · show s.originalByteCount + chunk.length = _
    rw [h.count, List.length_append]

theorem Holds.drain {s : BoundedStream} {stream : Bytes} (chunks : List Bytes)
    (hne : ∀ chunk ∈ chunks, chunk ≠ []) (hl : 1 ≤ s.limit) (h : s.Holds stream) :
    (s.drain chunks).limit = s.limit ∧ (s.drain chunks).Holds (stream ++ chunks.flatten) := by
  induction chunks generalizing s stream with
  | nil => exact ⟨rfl, by simpa [BoundedStream.drain] using h⟩
  | cons chunk rest ih =>
    have hstep := h.absorb chunk hl
    obtain ⟨hlimit, hrest⟩ := ih (s := s.absorb chunk) (fun c hc => hne c (List.mem_cons_of_mem _ hc))
      hl hstep
    rw [BoundedStream.drain, if_neg (hne chunk List.mem_cons_self)]
    refine ⟨hlimit, ?_⟩
    rwa [List.flatten_cons, ← List.append_assoc]

/-- What is kept of a pipe, and whether it is reported as truncated, whatever the chunks. -/
theorem drain_retains (limit : ℕ) (hl : 1 ≤ limit) (chunks : List Bytes)
    (hne : ∀ chunk ∈ chunks, chunk ≠ []) :
    let s := (init limit).drain chunks
    let stream := chunks.flatten
    (stream.length ≤ limit → s.data = stream) ∧
      (limit < stream.length →
        s.data = stream.take (limit / 2) ++ stream.drop (stream.length - (limit - limit / 2))) ∧
      (s.truncated = true ↔ limit < stream.length) ∧
      ∀ chunks' : List Bytes, (∀ chunk ∈ chunks', chunk ≠ []) → chunks'.flatten = stream →
        (init limit).drain chunks' = s := by
  intro s stream
  have hall : ∀ cs : List Bytes, (∀ chunk ∈ cs, chunk ≠ []) →
      (init limit).drain cs = ⟨limit, retained limit cs.flatten, cs.flatten.length⟩ := by
    intro cs hcs
    obtain ⟨hlimit, hdata, hcount⟩ := (holds_init limit).drain cs hcs hl
    rw [hlimit] at hdata
    generalize (init limit).drain cs = t at *
    cases t
    simp_all [init]
  have hs : s = ⟨limit, retained limit stream, stream.length⟩ := hall chunks hne
  refine ⟨fun h => ?_, fun h => ?_, ?_, fun cs hcs heq => ?_⟩
  · rw [hs, retained_fits _ _ h]
  · rw [hs, retained_over _ _ h]
  · rw [hs]
    exact decide_eq_true_iff
  · rw [hall cs hcs, hs, heq]

theorem drain_retains_straddling :
    let s := (init 5).drain [[1], [2, 3, 4], [5, 6, 7, 8, 9]]
    s.data = [1, 2, 7, 8, 9] ∧ s.truncated = true ∧
      (init 5).drain [[1, 2, 3, 4, 5, 6], [7, 8, 9]] = s := by
  obtain ⟨-, hover, htrunc, hsame⟩ := drain_retains 5 (by decide)
    [[1], [2, 3, 4], [5, 6, 7, 8, 9]] (by decide)
  exact ⟨hover (by decide), htrunc.mpr (by decide), hsame [[1, 2, 3, 4, 5, 6], [7, 8, 9]]
    (by decide) (by decide)⟩

end BoundedStream
end ParallelForge.Tools
