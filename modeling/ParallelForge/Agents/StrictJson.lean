import ParallelForge.Base.JsonRoundTrip

/-!
# Strict provider JSON (`agents/subscription_protocol.py`)

A line of a provider is read as one object without repeated keys, within the
bounds of a context. `readFloat` is `float(text)` printed again; it has no
answer where the value overflows. Everything accepted can be printed without
two values sharing a text: its strings hold no surrogates, its integers print.
-/

namespace ParallelForge.Agents
open Base

def maxFrameBytes : ℕ := 1048576

/-- `len(s.encode("utf-8"))`, where that does not raise. -/
def utf8Length : Str → Option ℕ
  | [] => some 0
  | c :: s =>
    match utf8Length s with
    | none => none
    | some n =>
      if c < 0x80 then some (n + 1)
      else if c < 0x800 then some (n + 2)
      else if 0xD800 ≤ c ∧ c ≤ 0xDFFF then none
      else if c < 0x10000 then some (n + 3)
      else if c < 0x110000 then some (n + 4)
      else none

section floats
variable (readFloat : Json.FloatText → Option Json.FloatText)

mutual
/-- The numbers of a text as the values they stand for. -/
def readFloats : Json → Option Json
  | .null => some .null
  | .bool b => some (.bool b)
  | .int z => some (.int z)
  | .float f => (readFloat f).map .float
  | .str s => some (.str s)
  | .arr vs => (readFloatsItems vs).map .arr
  | .obj ms => (readFloatsMembers ms).map .obj

def readFloatsItems : List Json → Option (List Json)
  | [] => some []
  | v :: vs =>
    match readFloats v, readFloatsItems vs with
    | some w, some ws => some (w :: ws)
    | _, _ => none

def readFloatsMembers : List (Str × Json) → Option (List (Str × Json))
  | [] => some []
  | (k, v) :: ms =>
    match readFloats v, readFloatsMembers ms with
    | some w, some ns => some ((k, w) :: ns)
    | _, _ => none
end

end floats

/-- `len(str(value).encode("utf-8"))` of a scalar. -/
def scalarBytes : Json → Option ℕ
  | .null => some 4
  | .bool b => some (if b then 4 else 5)
  | .int z => if (Json.decimal z.natAbs).length ≤ Json.digitLimit then some (Json.intText z).length else none
  | .float f => some f.text.length
  | .str s => utf8Length s
  | _ => none

def keyBytes : List (Str × Json) → Option ℕ
  | [] => some 0
  | (k, _) :: ms =>
    match utf8Length k, keyBytes ms with
    | some a, some b => some (a + b)
    | _, _ => none

/-- The count of values met, and of bytes. -/
structure Counter where
  values : ℕ
  bytes : ℕ

/-- The check on entering a value. -/
def Counter.enter (counter : Counter) (depth : ℕ) : Option Counter :=
  if 24 < depth ∨ 10000 < counter.values + 1 ∨ 1048576 < counter.bytes then none
  else some { counter with values := counter.values + 1 }

def Counter.scalar (counter : Counter) (v : Json) : Option Counter :=
  match scalarBytes v with
  | none => none
  | some n =>
    if 1048576 < counter.bytes + n then none else some { counter with bytes := counter.bytes + n }

mutual
/-- `_freeze` (`subscription_gateway.py:85-106`): the counter after the value. -/
def freeze (depth : ℕ) (counter : Counter) : Json → Option Counter
  | .obj ms =>
    match counter.enter depth, keyBytes ms with
    | some counter, some n => freezeMembers (depth + 1) { counter with bytes := counter.bytes + n } ms
    | _, _ => none
  | .arr vs =>
    match counter.enter depth with
    | some counter => freezeItems (depth + 1) counter vs
    | none => none
  | .null => (counter.enter depth).bind (·.scalar .null)
  | .bool b => (counter.enter depth).bind (·.scalar (.bool b))
  | .int z => (counter.enter depth).bind (·.scalar (.int z))
  | .float f => (counter.enter depth).bind (·.scalar (.float f))
  | .str s => (counter.enter depth).bind (·.scalar (.str s))

def freezeItems (depth : ℕ) (counter : Counter) : List Json → Option Counter
  | [] => some counter
  | v :: vs =>
    match freeze depth counter v with
    | some counter => freezeItems depth counter vs
    | none => none

def freezeMembers (depth : ℕ) (counter : Counter) : List (Str × Json) → Option Counter
  | [] => some counter
  | (_, v) :: ms =>
    match freeze depth counter v with
    | some counter => freezeMembers depth counter ms
    | none => none
end

structure ProtocolError where
  message : String
  deriving DecidableEq, Repr

abbrev Members := List (Str × Json)

/-- `freeze_context`: an object within the bounds. -/
def freezeContext (v : Json) : Except ProtocolError Members :=
  match v with
  | .obj ms =>
    match freeze 0 ⟨0, 0⟩ (.obj ms) with
    | some _ => .ok ms
    | none => .error ⟨"context is invalid or exceeds its bound"⟩
  | _ => .error ⟨"context must be an object"⟩

/-- `parse_json` (`subscription_protocol.py`). -/
def parseJson (readFloat : Json.FloatText → Option Json.FloatText) (text : Str) :
    Except ProtocolError Members :=
  match utf8Length text with
  | none => .error ⟨"invalid structured JSON"⟩
  | some n =>
    if 1048576 < n then .error ⟨"invalid structured JSON"⟩
    else
      match Json.loads text with
      | none => .error ⟨"invalid structured JSON"⟩
      | some v =>
        match readFloats readFloat v with
        | none => .error ⟨"context is invalid or exceeds its bound"⟩
        | some v => freezeContext v

/-- `dict.get`, as an option; `key` is ASCII. -/
def member (ms : Members) (key : String) : Option Json :=
  (ms.find? fun p => p.1 = codes key).map Prod.snd

/-- `set(ms) <= set(keys)`. -/
def keysWithin (ms : Members) (keys : List String) : Bool :=
  ms.all fun p => keys.any fun key => p.1 = codes key

/-- `set(ms) == set(keys)`. -/
def keysAre (ms : Members) (keys : List String) : Bool :=
  keysWithin ms keys && keys.all fun key => (member ms key).isSome

/-- `value == text`, for a text. -/
def isText (v : Option Json) (text : String) : Bool :=
  match v with
  | some (.str s) => s = codes text
  | _ => false

def isObject : Option Json → Option Members
  | some (.obj ms) => some ms
  | _ => none

/-! ## What is accepted can be printed -/

theorem utf8Length_scalar (s : Str) (n : ℕ) (h : utf8Length s = some n) :
    ∀ c ∈ s, c < 0x110000 ∧ ¬ (0xD800 ≤ c ∧ c ≤ 0xDFFF) := by
  induction s generalizing n with
  | nil => simp
  | cons c s ih =>
    unfold utf8Length at h
    cases hs : utf8Length s with
    | none => simp [hs] at h
    | some m =>
      intro d hd
      rcases List.mem_cons.mp hd with rfl | hd
      · simp only [hs] at h
        split_ifs at h <;> omega
      · exact ih m hs d hd

theorem spelled_of_utf8 (s : Str) (n : ℕ) (h : utf8Length s = some n) : Json.Spelled true s := by
  have hs := utf8Length_scalar s n h
  refine ⟨fun c hc => (hs c hc).1, fun _ => ?_⟩
  have hhigh : ∀ c ∈ s, Json.isHigh c = false := by
    intro c hc
    have := (hs c hc).2
    simp only [Json.isHigh, Bool.and_eq_false_iff, decide_eq_false_iff_not]
    omega
  clear hs h
  induction s with
  | nil => exact List.isChain_nil
  | cons c s ih =>
    cases s with
    | nil => exact List.isChain_singleton c
    | cons d s =>
      rw [List.isChain_cons_cons]
      refine ⟨fun hcd => ?_, ih fun x hx => hhigh x (List.mem_cons_of_mem c hx)⟩
      rw [hhigh c List.mem_cons_self] at hcd
      cases hcd.1

theorem keyBytes_spelled (ms : List (Str × Json)) (n : ℕ) (h : keyBytes ms = some n) :
    ∀ k ∈ ms.map Prod.fst, Json.Spelled true k := by
  induction ms generalizing n with
  | nil => simp
  | cons p ms ih =>
    obtain ⟨k, v⟩ := p
    simp only [keyBytes] at h
    split at h
    · next a b ha hb =>
      intro k' hk
      rcases List.mem_cons.mp hk with rfl | hk
      · exact spelled_of_utf8 _ a ha
      · exact ih b hb k' hk
    · cases h

/-- Strings and integers that print. -/
def Printed (v : Json) : Prop := Json.printable v = true ∧ Json.spelled true v

theorem scalar_printed (counter counter' : Counter) (depth : ℕ) (v : Json)
    (h : (counter.enter depth).bind (·.scalar v) = some counter') : ∃ n, scalarBytes v = some n := by
  obtain ⟨c, -, h⟩ := Option.bind_eq_some_iff.mp h
  unfold Counter.scalar at h
  cases hs : scalarBytes v with
  | none => simp [hs] at h
  | some n => exact ⟨n, rfl⟩

theorem freeze_printed (v : Json) : ∀ depth counter counter',
    freeze depth counter v = some counter' → Json.All Printed v := by
  induction v using Json.induct with
  | null => exact fun _ _ _ _ => ⟨rfl, trivial⟩
  | bool b => exact fun _ _ _ _ => ⟨rfl, trivial⟩
  | float f => exact fun _ _ _ _ => ⟨rfl, trivial⟩
  | int z =>
    intro depth counter counter' h
    obtain ⟨n, hn⟩ := scalar_printed _ _ _ _ h
    refine ⟨?_, trivial⟩
    simp only [scalarBytes] at hn
    split at hn
    · next hz => simpa [Json.printable] using hz
    · cases hn
  | str s =>
    intro depth counter counter' h
    obtain ⟨n, hn⟩ := scalar_printed _ _ _ _ h
    exact ⟨rfl, spelled_of_utf8 s n hn⟩
  | arr vs ih =>
    intro depth counter counter' h
    rw [Json.all_arr]
    refine ⟨⟨rfl, trivial⟩, ?_⟩
    simp only [freeze] at h
    split at h
    · next c _ =>
      clear * - ih h
      induction vs generalizing c with
      | nil => simp
      | cons v vs ihs =>
        simp only [freezeItems] at h
        split at h
        · next c' hc =>
          intro w hw
          rcases List.mem_cons.mp hw with rfl | hw
          · exact ih w List.mem_cons_self _ _ _ hc
          · exact ihs (fun x hx => ih x (List.mem_cons_of_mem v hx)) c' h w hw
        · cases h
    · cases h
  | obj ms ih =>
    intro depth counter counter' h
    rw [Json.all_obj]
    simp only [freeze] at h
    split at h
    · next c n _ hk =>
      refine ⟨⟨rfl, keyBytes_spelled ms n hk⟩, ?_⟩
      generalize hc' : ({ c with bytes := c.bytes + n } : Counter) = c' at h
      clear * - ih h
      induction ms generalizing c' with
      | nil => simp
      | cons p ms ihs =>
        obtain ⟨k, v⟩ := p
        simp only [freezeMembers] at h
        split at h
        · next c'' hc =>
          intro q hq
          rcases List.mem_cons.mp hq with rfl | hq
          · exact ih (k, v) List.mem_cons_self _ _ _ hc
          · exact ihs (fun x hx => ih x (List.mem_cons_of_mem _ hx)) c'' h q hq
        · cases h
    · cases h

theorem readFloatsMembers_keys (readFloat : Json.FloatText → Option Json.FloatText)
    (ms ns : List (Str × Json)) (h : readFloatsMembers readFloat ms = some ns) :
    ns.map Prod.fst = ms.map Prod.fst := by
  induction ms generalizing ns with
  | nil => cases h; rfl
  | cons p ms ih =>
    obtain ⟨k, v⟩ := p
    simp only [readFloatsMembers] at h
    split at h
    · next w ns' _ hn =>
      cases h
      rw [List.map_cons, List.map_cons, ih ns' hn]
    · cases h

theorem readFloats_unique (readFloat : Json.FloatText → Option Json.FloatText) (v : Json) :
    ∀ w, readFloats readFloat v = some w → Json.All Json.uniqueKeys v →
      Json.All Json.uniqueKeys w := by
  induction v using Json.induct with
  | null => intro w h _; cases h; trivial
  | bool b => intro w h _; cases h; trivial
  | int z => intro w h _; cases h; trivial
  | str s => intro w h _; cases h; trivial
  | float f =>
    intro w h _
    obtain ⟨g, -, rfl⟩ := Option.map_eq_some_iff.mp h
    trivial
  | arr vs ih =>
    intro w h hu
    obtain ⟨ws, hws, rfl⟩ := Option.map_eq_some_iff.mp h
    rw [Json.all_arr] at hu ⊢
    refine ⟨trivial, ?_⟩
    obtain ⟨-, hu⟩ := hu
    clear h
    induction vs generalizing ws with
    | nil => cases hws; simp
    | cons v vs ihs =>
      simp only [readFloatsItems] at hws
      split at hws
      · next x xs hx hxs =>
        cases hws
        intro y hy
        rcases List.mem_cons.mp hy with rfl | hy
        · exact ih v List.mem_cons_self _ hx (hu v List.mem_cons_self)
        · exact ihs (fun z hz => ih z (List.mem_cons_of_mem v hz)) xs hxs
            (fun z hz => hu z (List.mem_cons_of_mem v hz)) y hy
      · cases hws
  | obj ms ih =>
    intro w h hu
    obtain ⟨ns, hns, rfl⟩ := Option.map_eq_some_iff.mp h
    rw [Json.all_obj] at hu ⊢
    refine ⟨?_, ?_⟩
    · show (ns.map Prod.fst).Nodup
      rw [readFloatsMembers_keys readFloat ms ns hns]
      exact hu.1
    · obtain ⟨-, hu⟩ := hu
      clear h
      induction ms generalizing ns with
      | nil => cases hns; simp
      | cons p ms ihs =>
        obtain ⟨k, v⟩ := p
        simp only [readFloatsMembers] at hns
        split at hns
        · next x xs hx hxs =>
          cases hns
          intro q hq
          rcases List.mem_cons.mp hq with rfl | hq
          · exact ih (k, v) List.mem_cons_self _ hx (hu (k, v) List.mem_cons_self)
          · exact ihs (fun z hz => ih z (List.mem_cons_of_mem _ hz)) xs hxs
              (fun z hz => hu z (List.mem_cons_of_mem _ hz)) q hq
        · cases hns

/-- An accepted line can be printed and read back. -/
theorem parseJson_readable (readFloat : Json.FloatText → Option Json.FloatText) (text : Str)
    (ms : Members) (h : parseJson readFloat text = .ok ms) :
    Json.All (Json.Readable true) (.obj ms) := by
  unfold parseJson at h
  split at h
  · cases h
  · split at h
    · cases h
    · split at h
      · cases h
      · next v hv =>
        split at h
        · cases h
        · next w hw =>
          have hu := readFloats_unique readFloat v w hw (Json.loads_unique text v hv)
          unfold freezeContext at h
          split at h
          · next ns =>
            split at h
            · next c hc =>
              cases h
              have hp := freeze_printed _ _ _ _ hc
              exact Json.all_mono (fun u hu => ⟨hu.1, hu.2.1, hu.2.2⟩) _ (Json.all_and hu hp)
            · cases h
          · cases h

/- A member of an accepted object is accepted. -/
theorem member_all (P : Json → Prop) (ms : Members) (h : Json.All P (.obj ms)) (key : String)
    (v : Json) (hv : member ms key = some v) : Json.All P v := by
  rw [Json.all_obj] at h
  obtain ⟨p, hp, rfl⟩ := Option.map_eq_some_iff.mp hv
  exact h.2 p (List.mem_of_find?_eq_some hp)

theorem readable_member {ms ns : Members} (key : String)
    (h : Json.All (Json.Readable true) (.obj ms)) (hm : member ms key = some (.obj ns)) :
    Json.All (Json.Readable true) (.obj ns) := member_all _ ms h key _ hm

theorem isObject_eq_some (v : Option Json) (ms : Members) :
    isObject v = some ms ↔ v = some (.obj ms) := by
  unfold isObject
  split
  · simp
  · next hne => simpa using fun h => hne ms h

theorem freezeContext_eq_ok (v : Json) (ms : Members) (h : freezeContext v = .ok ms) :
    v = .obj ms := by
  unfold freezeContext at h
  split at h
  · split at h
    · cases h
      rfl
    · cases h
  · cases h

end ParallelForge.Agents
