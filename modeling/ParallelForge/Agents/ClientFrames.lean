import ParallelForge.Agents.StrictJson
import ParallelForge.Base.Codec
import ParallelForge.Base.Result

/-!
# The frames of a client (`agents/client_process.py`)

The reader of a client's standard output takes chunks as they come, keeps the
line that is not complete, and admits each complete line as one JSON object. The
parameters are what Python decides: the value of a float text, and whether the
scanner and `copy.deepcopy` get through a text and a value without a
`RecursionError`.
-/

namespace ParallelForge.Agents
open Base

abbrev Octets := List UInt8

inductive ClientProtocolError
  | totalOutput
  | frameLimit
  | unterminated
  | malformed
  | notObject
  | notBounded
  deriving DecidableEq, Repr

def ClientProtocolError.message : ClientProtocolError → String
  | totalOutput => "client total output exceeds limit"
  | frameLimit => "client frame exceeds limit"
  | unterminated => "client frame is not newline terminated"
  | malformed => "client emitted malformed JSONL"
  | notObject => "client frame must be an object"
  | notBounded => "client frame is not bounded JSON"

structure FrameLimits where
  stdoutMaxBytes : ℕ
  frameMaxBytes : ℕ

structure Interpreter where
  readFloat : Json.FloatText → Option Json.FloatText
  scans : Str → Bool
  copies : Json → Bool

section reader
variable (py : Interpreter) (limits : FrameLimits)

/-- What `json.loads` makes of a line, with the hooks that refuse repeated keys and
non-finite numbers; then the copy. -/
def decodeFrame (line : Octets) : Except ClientProtocolError Members :=
  match Codec.decodeDetected (line.map UInt8.toNat) with
  | none => .error .malformed
  | some text =>
    if !py.scans text then .error .malformed
    else match (Json.loads text).bind (readFloats py.readFloat) with
      | none => .error .malformed
      | some (.obj members) => if py.copies (.obj members) then .ok members else .error .notBounded
      | some _ => .error .notObject

/-- `_admit_frame`. -/
def admitFrame (line : Octets) : Except ClientProtocolError Members :=
  if limits.frameMaxBytes < line.length + 1 then .error .frameLimit else decodeFrame py line

structure StdoutReader where
  outBytes : ℕ
  pending : Octets
  frames : List Members
  failure : Option ClientProtocolError

def StdoutReader.init : StdoutReader := ⟨0, [], [], none⟩

def StdoutReader.admitLine (r : StdoutReader) (line : Octets) : StdoutReader :=
  match admitFrame py limits line with
  | .ok frame => { r with frames := r.frames ++ [frame] }
  | .error e => { r with failure := some e }

/-- `pending.partition(b"\n")`, if there is a newline. -/
def partitionLine : Octets → Option (Octets × Octets)
  | [] => none
  | b :: s => if b = 10 then some ([], s) else (partitionLine s).map fun p => (b :: p.1, p.2)

/-- The inner loop; every turn drops a byte, so the length of the buffer is enough. -/
def StdoutReader.takeLines : ℕ → StdoutReader → StdoutReader
  | 0, r => r
  | n + 1, r =>
    if r.failure.isSome then r
    else match partitionLine r.pending with
      | none => r
      | some (line, rest) => takeLines n (StdoutReader.admitLine py limits { r with pending := rest } line)

def StdoutReader.bound (r : StdoutReader) : StdoutReader :=
  if r.failure.isNone ∧ limits.frameMaxBytes < r.pending.length then
    { r with failure := some .frameLimit }
  else r

/-- One turn of the outer loop; an exception has ended it. -/
def StdoutReader.receive (r : StdoutReader) (chunk : Octets) : StdoutReader :=
  if r.failure.isSome then r
  else if limits.stdoutMaxBytes < r.outBytes + chunk.length then
    { r with outBytes := r.outBytes + chunk.length, failure := some .totalOutput }
  else
    ((StdoutReader.takeLines py limits (r.pending ++ chunk).length
      { r with outBytes := r.outBytes + chunk.length, pending := r.pending ++ chunk })).bound limits

def StdoutReader.close (r : StdoutReader) : StdoutReader :=
  if r.failure.isNone ∧ r.pending ≠ [] then { r with failure := some .unterminated } else r

/-- `_stdout`, on what the reads of the pipe return; an empty one is its end. -/
def StdoutReader.stdout (r : StdoutReader) : List Octets → StdoutReader
  | [] => r.close
  | chunk :: rest => if chunk = [] then r.close else (r.receive py limits chunk).stdout rest

end reader

/-! ## Lines -/

/-- A byte in front of the first line. -/
def pushByte (b : UInt8) : List Octets × Octets → List Octets × Octets
  | ([], tail) => ([], b :: tail)
  | (line :: rest, tail) => ((b :: line) :: rest, tail)

/-- The complete lines of a stream, without their newlines, and what follows them. -/
def cutLines : Octets → List Octets × Octets
  | [] => ([], [])
  | b :: s => if b = 10 then ([] :: (cutLines s).1, (cutLines s).2) else pushByte b (cutLines s)

theorem cutLines_newline (s : Octets) :
    cutLines (10 :: s) = ([] :: (cutLines s).1, (cutLines s).2) := by
  rw [cutLines, if_pos rfl]

theorem cutLines_byte (b : UInt8) (s : Octets) (hb : b ≠ 10) :
    cutLines (b :: s) = pushByte b (cutLines s) := by
  rw [cutLines, if_neg hb]

theorem cutLines_open (s : Octets) (hs : 10 ∉ s) : cutLines s = ([], s) := by
  induction s with
  | nil => rfl
  | cons b s ih =>
    have hb : b ≠ 10 := fun h => hs (h ▸ List.mem_cons_self)
    rw [cutLines_byte b s hb, ih fun h => hs (List.mem_cons_of_mem _ h)]
    rfl

theorem cutLines_line (line rest : Octets) (hline : 10 ∉ line) :
    cutLines (line ++ 10 :: rest) = (line :: (cutLines rest).1, (cutLines rest).2) := by
  induction line with
  | nil => exact cutLines_newline rest
  | cons b line ih =>
    have hb : b ≠ 10 := fun h => hline (h ▸ List.mem_cons_self)
    rw [List.cons_append, cutLines_byte b _ hb, ih fun h => hline (List.mem_cons_of_mem _ h)]
    rfl

/- The lines of a stream are those of its front, and those that begin in its tail. -/
theorem cutLines_append (s t : Octets) :
    cutLines (s ++ t) =
      ((cutLines s).1 ++ (cutLines ((cutLines s).2 ++ t)).1, (cutLines ((cutLines s).2 ++ t)).2) := by
  induction s with
  | nil => rfl
  | cons b s ih =>
    by_cases hb : b = 10
    · subst hb
      rw [List.cons_append, cutLines_newline, ih, cutLines_newline]
      rfl
    · rw [List.cons_append, cutLines_byte b _ hb, ih, cutLines_byte b s hb]
      obtain ⟨lines, tail⟩ := cutLines s
      cases lines with
      | nil => exact (cutLines_byte b _ hb).symm
      | cons line rest => rfl

/-- The lines and the tail make up the stream, and no newline is inside one. -/
theorem cutLines_stream (s : Octets) :
    ((cutLines s).1.map (· ++ [10])).flatten ++ (cutLines s).2 = s ∧
      (∀ line ∈ (cutLines s).1, 10 ∉ line) ∧ 10 ∉ (cutLines s).2 := by
  induction s with
  | nil => exact ⟨rfl, nofun, List.not_mem_nil⟩
  | cons b s ih =>
    obtain ⟨hstream, hlines, htail⟩ := ih
    by_cases hb : b = 10
    · subst hb
      rw [cutLines_newline]
      refine ⟨congrArg (10 :: ·) hstream, fun line hline => ?_, htail⟩
      rcases List.mem_cons.mp hline with rfl | hline
      · exact List.not_mem_nil
      · exact hlines line hline
    · rw [cutLines_byte b s hb]
      have hfront : ∀ line : Octets, 10 ∉ line → 10 ∉ b :: line := by
        intro line hline hmem
        rcases List.mem_cons.mp hmem with h | h
        · exact hb h.symm
        · exact hline h
      generalize cutLines s = cut at *
      obtain ⟨lines, tail⟩ := cut
      cases lines with
      | nil => exact ⟨congrArg (b :: ·) hstream, nofun, hfront tail htail⟩
      | cons line rest =>
        refine ⟨congrArg (b :: ·) hstream, fun l hl => ?_, htail⟩
        rcases List.mem_cons.mp hl with rfl | hl
        · exact hfront line (hlines line List.mem_cons_self)
        · exact hlines l (List.mem_cons_of_mem _ hl)

/- Nothing follows the last line where the stream is empty or ends with a newline. -/
theorem tail_ne_nil (s : Octets) : (cutLines s).2 ≠ [] ↔ s ≠ [] ∧ s.getLast? ≠ some 10 := by
  obtain ⟨hstream, -, htail⟩ := cutLines_stream s
  generalize cutLines s = cut at *
  obtain ⟨lines, tail⟩ := cut
  simp only at hstream htail ⊢
  constructor
  · intro hne
    rw [← hstream, List.getLast?_append_of_ne_nil _ hne]
    refine ⟨fun h => hne (List.append_eq_nil_iff.mp h).2, fun hlast => ?_⟩
    exact htail (List.mem_of_getLast? hlast)
  · rintro ⟨hs, hlast⟩ rfl
    rw [List.append_nil] at hstream
    rcases List.eq_nil_or_concat lines with rfl | ⟨front, line, rfl⟩
    · exact hs hstream.symm
    · refine hlast ?_
      rw [← hstream]
      simp

theorem partitionLine_eq_none (s : Octets) (h : partitionLine s = none) : cutLines s = ([], s) := by
  refine cutLines_open s ?_
  induction s with
  | nil => exact List.not_mem_nil
  | cons b s ih =>
    unfold partitionLine at h
    split at h
    · cases h
    · next hb =>
      rw [Option.map_eq_none_iff] at h
      exact List.not_mem_cons_of_ne_of_not_mem (fun heq => hb heq.symm) (ih h)

theorem partitionLine_eq_some (s line rest : Octets) (h : partitionLine s = some (line, rest)) :
    s = line ++ 10 :: rest ∧ 10 ∉ line := by
  induction s generalizing line with
  | nil => cases h
  | cons b s ih =>
    unfold partitionLine at h
    split at h
    · next hb =>
      cases h
      exact ⟨by rw [hb]; rfl, List.not_mem_nil⟩
    · next hb =>
      obtain ⟨⟨front, back⟩, hfront, heq⟩ := Option.map_eq_some_iff.mp h
      cases heq
      obtain ⟨hs, hline⟩ := ih front hfront
      exact ⟨congrArg (b :: ·) hs,
        List.not_mem_cons_of_ne_of_not_mem (fun heq => hb heq.symm) hline⟩

/-! ## The reader -/

section law
variable (py : Interpreter) (limits : FrameLimits)

/-- The frames that the lines are admitted as. -/
def Admits (lines : List Octets) (frames : List Members) : Prop :=
  List.Forall₂ (fun line frame => admitFrame py limits line = .ok frame) lines frames

variable {py limits} in
theorem admitLine_ok {r : StdoutReader} {line : Octets} {frame : Members}
    (h : admitFrame py limits line = .ok frame) :
    StdoutReader.admitLine py limits r line = { r with frames := r.frames ++ [frame] } := by
  rw [StdoutReader.admitLine, h]

variable {py limits} in
theorem admitLine_error {r : StdoutReader} {line : Octets} {e : ClientProtocolError}
    (h : admitFrame py limits line = .error e) :
    StdoutReader.admitLine py limits r line = { r with failure := some e } := by
  rw [StdoutReader.admitLine, h]

attribute [local simp] StdoutReader.takeLines

theorem takeLines_failed (n : ℕ) (r : StdoutReader) (h : r.failure.isSome = true) :
    StdoutReader.takeLines py limits n r = r := by
  cases n with
  | zero => rfl
  | succ n => rw [StdoutReader.takeLines, if_pos h]

theorem takeLines_open (n : ℕ) (r : StdoutReader) (h : partitionLine r.pending = none) :
    StdoutReader.takeLines py limits n r = r := by
  cases n with
  | zero => rfl
  | succ n =>
    rw [StdoutReader.takeLines, h]
    simp

theorem takeLines_line (n : ℕ) (r : StdoutReader) (line rest : Octets) (hr : r.failure = none)
    (h : partitionLine r.pending = some (line, rest)) :
    StdoutReader.takeLines py limits (n + 1) r = StdoutReader.takeLines py limits n
      (StdoutReader.admitLine py limits { r with pending := rest } line) := by
  rw [StdoutReader.takeLines, hr, Option.isSome_none, if_neg (by decide), h]

/- The loop over the buffer either admits its lines, or one of them is refused. -/
theorem takeLines_spec (n out : ℕ) (pending : Octets) (frames : List Members) (hn : pending.length ≤ n) :
    (∃ added, Admits py limits (cutLines pending).1 added ∧
      StdoutReader.takeLines py limits n ⟨out, pending, frames, none⟩ =
        ⟨out, (cutLines pending).2, frames ++ added, none⟩) ∨
    ((StdoutReader.takeLines py limits n ⟨out, pending, frames, none⟩).failure.isSome = true ∧
      ∃ line ∈ (cutLines pending).1, ∃ e, admitFrame py limits line = .error e) := by
  induction n generalizing pending frames with
  | zero =>
    obtain rfl : pending = [] := List.length_eq_zero_iff.mp (by omega)
    exact .inl ⟨[], .nil, by simp [StdoutReader.takeLines, cutLines]⟩
  | succ n ih =>
    cases hp : partitionLine pending with
    | none =>
      left
      rw [partitionLine_eq_none _ hp, takeLines_open py limits _ _ hp]
      exact ⟨[], .nil, by rw [List.append_nil]⟩
    | some p =>
      obtain ⟨line, rest⟩ := p
      obtain ⟨hpending, hline⟩ := partitionLine_eq_some _ _ _ hp
      have hcut : cutLines pending = (line :: (cutLines rest).1, (cutLines rest).2) := by
        rw [hpending, cutLines_line line rest hline]
      have hlen : rest.length ≤ n := by
        have := congrArg List.length hpending
        rw [List.length_append, List.length_cons] at this
        omega
      rw [takeLines_line py limits n _ line rest rfl hp, hcut]
      cases ha : admitFrame py limits line with
      | error e =>
        right
        rw [admitLine_error ha, takeLines_failed py limits n _ rfl]
        exact ⟨rfl, line, List.mem_cons_self, e, ha⟩
      | ok frame =>
        rw [admitLine_ok ha]
        rcases ih rest (frames ++ [frame]) hlen with ⟨added, hadded, hrun⟩ | ⟨hfails, bad, hbad, hrefused⟩
        · left
          refine ⟨frame :: added, .cons ha hadded, ?_⟩
          rw [hrun, List.append_assoc]
          rfl
        · exact .inr ⟨hfails, bad, List.mem_cons_of_mem _ hbad, hrefused⟩

/-- What makes a stream unreadable. -/
inductive Refused (stream : Octets) : Prop
  | total (h : limits.stdoutMaxBytes < stream.length)
  | line (line : Octets) (hl : line ∈ (cutLines stream).1) (e : ClientProtocolError)
      (h : admitFrame py limits line = .error e)
  | unterminated (h : (cutLines stream).2 ≠ [])

/-- What the reader has done with the bytes it has read so far. -/
inductive Reads (stream : Octets) (r : StdoutReader) : Prop
  | going (htotal : stream.length ≤ limits.stdoutMaxBytes)
      (hpending : (cutLines stream).2.length ≤ limits.frameMaxBytes)
      (hr : ∃ frames, Admits py limits (cutLines stream).1 frames ∧
        r = ⟨stream.length, (cutLines stream).2, frames, none⟩)
  | failed (hr : r.failure.isSome = true) (hspoiled : ∀ more, Refused py limits (stream ++ more))

theorem reads_init : Reads py limits [] .init := .going (Nat.zero_le _) (Nat.zero_le _) ⟨[], .nil, rfl⟩

/- A refused line stays one of the stream. -/
theorem Refused.of_line (stream more line : Octets) (hl : line ∈ (cutLines stream).1)
    (e : ClientProtocolError) (h : admitFrame py limits line = .error e) :
    Refused py limits (stream ++ more) := by
  refine .line line ?_ e h
  rw [cutLines_append]
  exact List.mem_append_left _ hl

/- The first newline behind a text without one ends a line that holds the text. -/
theorem length_le_line (tail more line rest : Octets) (htail : 10 ∉ tail)
    (h : tail ++ more = line ++ 10 :: rest) : tail.length ≤ line.length := by
  rcases List.append_eq_append_iff.mp h with ⟨extra, rfl, -⟩ | ⟨extra, rfl, hrest⟩
  · rw [List.length_append]
    omega
  · cases extra with
    | nil => rw [List.append_nil]
    | cons b extra =>
      obtain ⟨rfl, -⟩ := List.cons_eq_cons.mp hrest
      exact absurd (List.mem_append_right _ List.mem_cons_self) htail

/- A tail that is too long becomes a line that is too long, or is never ended. -/
theorem Refused.of_tail (stream more : Octets) (h : limits.frameMaxBytes < (cutLines stream).2.length) :
    Refused py limits (stream ++ more) := by
  have happend := cutLines_append stream more
  have htail := (cutLines_stream stream).2.2
  cases hp : partitionLine ((cutLines stream).2 ++ more) with
  | none =>
    refine .unterminated ?_
    rw [happend, partitionLine_eq_none _ hp]
    intro hempty
    rw [(List.append_eq_nil_iff.mp hempty).1] at h
    cases h
  | some p =>
    obtain ⟨line, rest⟩ := p
    obtain ⟨hsplit, hline⟩ := partitionLine_eq_some _ _ _ hp
    have hlen := length_le_line _ more line rest htail hsplit
    refine .line line ?_ .frameLimit (if_pos (by omega))
    rw [happend, hsplit, cutLines_line line rest hline]
    exact List.mem_append_right _ List.mem_cons_self

theorem Reads.receive {py : Interpreter} {limits : FrameLimits} {stream : Octets} {r : StdoutReader}
    (chunk : Octets) (h : Reads py limits stream r) :
    Reads py limits (stream ++ chunk) (r.receive py limits chunk) := by
  cases h with
  | failed hr hspoiled =>
    rw [StdoutReader.receive, if_pos hr]
    refine .failed hr fun more => ?_
    rw [List.append_assoc]
    exact hspoiled _
  | going htotal hpending hr =>
    obtain ⟨frames, hframes, rfl⟩ := hr
    have happend := cutLines_append stream chunk
    rw [StdoutReader.receive, Option.isSome_none, if_neg (by decide)]
    simp only
    by_cases hover : limits.stdoutMaxBytes < stream.length + chunk.length
    · rw [if_pos hover]
      refine .failed rfl fun more => .total ?_
      rw [List.length_append, List.length_append]
      omega
    rw [if_neg hover]
    rcases takeLines_spec py limits ((cutLines stream).2 ++ chunk).length (stream.length + chunk.length)
        ((cutLines stream).2 ++ chunk) frames (Nat.le_refl _) with
      ⟨added, hadded, hrun⟩ | ⟨hfails, bad, hbad, e, hrefused⟩
    · have hall : Admits py limits (cutLines (stream ++ chunk)).1 (frames ++ added) := by
        rw [happend]
        exact List.rel_append hframes hadded
      rw [hrun, StdoutReader.bound]
      by_cases hlong : limits.frameMaxBytes < (cutLines ((cutLines stream).2 ++ chunk)).2.length
      · rw [if_pos ⟨rfl, hlong⟩]
        refine .failed rfl fun more => Refused.of_tail py limits _ more ?_
        rw [happend]
        exact hlong
      · rw [if_neg (fun hboth => hlong hboth.2)]
        refine .going (by rw [List.length_append]; omega) ?_ ⟨_, hall, ?_⟩
        · rw [happend]
          exact Nat.le_of_not_lt hlong
        · rw [happend, List.length_append]
    · have hkept : (StdoutReader.takeLines py limits ((cutLines stream).2 ++ chunk).length
          ⟨stream.length + chunk.length, (cutLines stream).2 ++ chunk, frames, none⟩).bound limits =
          StdoutReader.takeLines py limits ((cutLines stream).2 ++ chunk).length
            ⟨stream.length + chunk.length, (cutLines stream).2 ++ chunk, frames, none⟩ := by
        rw [StdoutReader.bound, if_neg]
        rintro ⟨hnone, -⟩
        rw [Option.isNone_iff_eq_none.mp hnone] at hfails
        cases hfails
      rw [hkept]
      refine .failed hfails fun more => Refused.of_line py limits _ more bad ?_ e hrefused
      rw [happend]
      exact List.mem_append_right _ hbad

theorem Reads.close {py : Interpreter} {limits : FrameLimits} {stream : Octets} {r : StdoutReader}
    (h : Reads py limits stream r) :
    (r.close.failure.isSome = true ↔ Refused py limits stream) ∧
      (r.close.failure = none → Admits py limits (cutLines stream).1 r.close.frames) := by
  cases h with
  | failed hr hspoiled =>
    have hclose : r.close = r := by
      rw [StdoutReader.close, if_neg]
      rintro ⟨hnone, -⟩
      rw [Option.isNone_iff_eq_none.mp hnone] at hr
      cases hr
    rw [hclose]
    refine ⟨⟨fun _ => ?_, fun _ => hr⟩, fun hnone => ?_⟩
    · have := hspoiled []
      rwa [List.append_nil] at this
    · rw [hnone] at hr
      cases hr
  | going htotal hpending hr =>
    obtain ⟨frames, hframes, rfl⟩ := hr
    by_cases hne : (cutLines stream).2 = []
    · rw [StdoutReader.close, if_neg (fun hboth => hboth.2 hne)]
      refine ⟨⟨nofun, fun hrefused => ?_⟩, fun _ => hframes⟩
      exfalso
      cases hrefused with
      | total h => omega
      | line line hl e h =>
        obtain ⟨frame, -, hok⟩ := forall₂_exists hframes.flip line hl
        have hok : admitFrame py limits line = .ok frame := hok
        rw [h] at hok
        cases hok
      | unterminated h => exact h hne
    · rw [StdoutReader.close, if_pos ⟨rfl, hne⟩]
      exact ⟨⟨fun _ => .unterminated hne, fun _ => rfl⟩, nofun⟩

theorem Reads.stdout {py : Interpreter} {limits : FrameLimits} {stream : Octets} {r : StdoutReader}
    (chunks : List Octets) (hne : ∀ chunk ∈ chunks, chunk ≠ []) (h : Reads py limits stream r) :
    ∃ r', r.stdout py limits chunks = r'.close ∧ Reads py limits (stream ++ chunks.flatten) r' := by
  induction chunks generalizing stream r with
  | nil => exact ⟨r, rfl, by simpa using h⟩
  | cons chunk rest ih =>
    obtain ⟨r', hrun, hr'⟩ := ih (fun c hc => hne c (List.mem_cons_of_mem _ hc)) (h.receive chunk)
    rw [StdoutReader.stdout, if_neg (hne chunk List.mem_cons_self), List.flatten_cons,
      ← List.append_assoc]
    exact ⟨r', hrun, hr'⟩

theorem admitFrame_eq_ok (line : Octets) (frame : Members) :
    admitFrame py limits line = .ok frame ↔
      line.length + 1 ≤ limits.frameMaxBytes ∧ decodeFrame py line = .ok frame := by
  unfold admitFrame
  split
  · next h => exact ⟨nofun, fun hall => absurd hall.1 (by omega)⟩
  · next h => exact ⟨fun hok => ⟨by omega, hok⟩, fun hall => hall.2⟩

theorem refused_iff (stream : Octets) : Refused py limits stream ↔
    limits.stdoutMaxBytes < stream.length ∨
      (∃ line ∈ (cutLines stream).1, limits.frameMaxBytes < line.length + 1) ∨
      (∃ line ∈ (cutLines stream).1, ∀ frame, decodeFrame py line ≠ .ok frame) ∨
      (stream ≠ [] ∧ stream.getLast? ≠ some 10) := by
  rw [← tail_ne_nil]
  constructor
  · rintro (h | ⟨line, hl, e, h⟩ | h)
    · exact .inl h
    · unfold admitFrame at h
      split at h
      · next hlong => exact .inr (.inl ⟨line, hl, hlong⟩)
      · refine .inr (.inr (.inl ⟨line, hl, fun frame hok => ?_⟩))
        rw [hok] at h
        cases h
    · exact .inr (.inr (.inr h))
  · rintro (h | ⟨line, hl, h⟩ | ⟨line, hl, h⟩ | h)
    · exact .total h
    · exact .line line hl .frameLimit (if_pos h)
    · cases ha : admitFrame py limits line with
      | error e => exact .line line hl e ha
      | ok frame => exact absurd ((admitFrame_eq_ok py limits line frame).mp ha).2 (h frame)
    · exact .unterminated h

/-- Whether the reader fails, and the frames it delivers otherwise, is a matter of the
stream alone, however the reads cut it. -/
theorem stdout_framing (chunks : List Octets) (hne : ∀ chunk ∈ chunks, chunk ≠ []) :
    let stream := chunks.flatten
    let r := StdoutReader.init.stdout py limits chunks
    (r.failure.isSome = true ↔
      limits.stdoutMaxBytes < stream.length ∨
        (∃ line ∈ (cutLines stream).1, limits.frameMaxBytes < line.length + 1) ∨
        (∃ line ∈ (cutLines stream).1, ∀ frame, decodeFrame py line ≠ .ok frame) ∨
        (stream ≠ [] ∧ stream.getLast? ≠ some 10)) ∧
    (r.failure = none →
      List.Forall₂ (fun line frame => decodeFrame py line = .ok frame) (cutLines stream).1 r.frames) := by
  intro stream r
  obtain ⟨r', hrun, hreads⟩ := (reads_init py limits).stdout chunks hne
  rw [List.nil_append] at hreads
  obtain ⟨hfails, hframes⟩ := hreads.close
  rw [← hrun] at hfails hframes
  refine ⟨hfails.trans (refused_iff py limits stream), fun hnone => ?_⟩
  exact (hframes hnone).imp fun line frame h => ((admitFrame_eq_ok py limits line frame).mp h).2

end law

/-- Every float text as it stands, and no recursion limit. -/
def plainInterpreter : Interpreter := ⟨some, fun _ => true, fun _ => true⟩

theorem stdout_framing_split :
    let r := StdoutReader.init.stdout plainInterpreter ⟨100, 3⟩ [[123], [125, 10, 123], [125, 10]]
    r.failure = none ∧
      List.Forall₂ (fun line frame => decodeFrame plainInterpreter line = .ok frame)
        [[123, 125], [123, 125]] r.frames :=
  ⟨rfl, (stdout_framing plainInterpreter ⟨100, 3⟩ [[123], [125, 10, 123], [125, 10]] (by decide)).2 rfl⟩

/-- An empty stream does not end with a newline, and is read without a failure. -/
theorem stdout_empty : ¬ ((StdoutReader.init.stdout plainInterpreter ⟨100, 8⟩ []).failure.isSome = true ↔
    100 < ([] : Octets).length ∨
      (∃ line ∈ (cutLines []).1, 8 < line.length + 1) ∨
      (∃ line ∈ (cutLines []).1, ∀ frame, decodeFrame plainInterpreter line ≠ .ok frame) ∨
      ([] : Octets).getLast? ≠ some 10) := by
  intro h
  have hfails := h.mpr (.inr (.inr (.inr nofun)))
  cases hfails

end ParallelForge.Agents
