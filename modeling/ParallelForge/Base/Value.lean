import Mathlib.Data.Rat.Defs
import Mathlib.Data.List.Basic

/-!
# Python values read from JSON

What a decoded payload holds, with Python's `==`: a bool equals the number it
is, mappings are equal key by key. A mapping is read by `get` and written by
`insert`; the order of its members is never looked at.
-/

namespace ParallelForge.Base

/-- A double: an exact value, an infinity or a NaN. -/
inductive Double
  | finite (value : ℚ)
  | inf (negative : Bool)
  | nan
  deriving DecidableEq

inductive Value
  | none
  | bool (value : Bool)
  | int (value : ℤ)
  | float (value : Double)
  | str (text : String)
  | list (items : List Value)
  | dict (members : List (String × Value))

abbrev Dict := List (String × Value)

namespace Value

/-- What the number types have in common. -/
def number : Value → Option Double
  | .bool b => some (.finite (if b then 1 else 0))
  | .int z => some (.finite z)
  | .float d => some d
  | _ => Option.none

def sameNumber : Double → Double → Bool
  | .finite p, .finite q => p = q
  | .inf a, .inf b => a == b
  | _, _ => false

/-- `dict.get`, as an option. -/
def lookup (d : Dict) (key : String) : Option Value :=
  match d with
  | [] => Option.none
  | p :: d => if p.1 = key then some p.2 else lookup d key

def hasKey (d : Dict) (key : String) : Bool := (lookup d key).isSome

/-- `dict.get`: `None` for a missing key. -/
def get (d : Dict) (key : String) : Value := (lookup d key).getD .none

mutual

/-- `==`. -/
def eq : Value → Value → Bool
  | .none, w => match w with
    | .none => true
    | _ => false
  | .str s, w => match w with
    | .str t => s == t
    | _ => false
  | .list l, w => match w with
    | .list m => eqItems l m
    | _ => false
  | .dict l, w => match w with
    | .dict m => (m.all fun p => hasKey l p.1) && eqMembers l m
    | _ => false
  | .bool b, w => match number w with
    | some x => sameNumber (.finite (if b then 1 else 0)) x
    | Option.none => false
  | .int z, w => match number w with
    | some x => sameNumber (.finite z) x
    | Option.none => false
  | .float d, w => match number w with
    | some x => sameNumber d x
    | Option.none => false

def eqItems : List Value → List Value → Bool
  | [], [] => true
  | v :: l, w :: m => eq v w && eqItems l m
  | _, _ => false

def eqMembers : Dict → Dict → Bool
  | [], _ => true
  | (k, v) :: l, m =>
    (match lookup m k with
      | some w => eq v w
      | Option.none => false) && eqMembers l m

end

/-- `d == e`. -/
def sameDict (d e : Dict) : Bool := eq (.dict d) (.dict e)

/-- `set(d) == set(keys)`. -/
def hasKeys (d : Dict) (keys : List String) : Bool :=
  (d.all fun p => keys.contains p.1) && keys.all (hasKey d)

/-- Every member of `expected` is in `d` with an equal value, a missing one read
as `None`. -/
def agrees (d expected : Dict) : Bool := expected.all fun p => eq (get d p.1) p.2

def insert (d : Dict) (key : String) (v : Value) : Dict :=
  (key, v) :: d.filter fun p => p.1 ≠ key

/-- `d | e`. -/
def merge (d e : Dict) : Dict := e.foldl (fun d p => insert d p.1 p.2) d

/-- `bool(v)`. -/
def truthy : Value → Bool
  | .none => false
  | .bool b => b
  | .int z => z ≠ 0
  | .float d => d ≠ .finite 0
  | .str s => s ≠ ""
  | .list l => !l.isEmpty
  | .dict d => !d.isEmpty

/-- A text, or `None`. -/
def ofText : Option String → Value
  | some s => .str s
  | Option.none => .none

theorem eq_str_iff (v : Value) (s : String) : eq v (.str s) = true ↔ v = .str s := by
  cases v <;> simp [eq, number]

theorem lookup_mem (d : Dict) (k : String) (v : Value) (h : lookup d k = some v) : (k, v) ∈ d := by
  induction d with
  | nil => simp [lookup] at h
  | cons p d ih =>
    by_cases hp : p.1 = k
    · simp only [lookup, hp, ite_true, Option.some.injEq] at h
      subst hp
      subst h
      exact List.mem_cons_self
    · simp only [lookup, hp, ite_false] at h
      exact List.mem_cons_of_mem p (ih h)

theorem eqMembers_mem (l m : Dict) (h : eqMembers l m = true) (k : String) (v : Value)
    (hv : (k, v) ∈ l) : ∃ w, lookup m k = some w ∧ eq v w = true := by
  induction l with
  | nil => cases hv
  | cons p l ih =>
    obtain ⟨k', v'⟩ := p
    simp only [eqMembers, Bool.and_eq_true] at h
    rcases List.mem_cons.mp hv with he | hv
    · cases he
      cases hl : lookup m k with
      | none => simp [hl] at h
      | some w => exact ⟨w, rfl, by simpa [hl] using h.1⟩
    · exact ih h.2 hv

/- Equal mappings read equal values. -/
theorem sameDict_lookup (d e : Dict) (h : sameDict d e = true) (k : String) (w : Value)
    (hw : lookup e k = some w) : ∃ v, lookup d k = some v ∧ eq v w = true := by
  simp only [sameDict, eq, Bool.and_eq_true, List.all_eq_true] at h
  have hk := h.1 (k, w) (lookup_mem e k w hw)
  obtain ⟨v, hv⟩ := Option.isSome_iff_exists.mp hk
  obtain ⟨w', hw', hvw⟩ := eqMembers_mem d e h.2 k v (lookup_mem d k v hv)
  rw [hw] at hw'
  cases hw'
  exact ⟨v, hv, hvw⟩

theorem sameDict_str (d e : Dict) (h : sameDict d e = true) (k s : String)
    (hs : lookup e k = some (.str s)) : get d k = .str s := by
  obtain ⟨v, hv, hvw⟩ := sameDict_lookup d e h k _ hs
  rw [eq_str_iff] at hvw
  simp [get, hv, hvw]

/- A key of the one is a key of the other. -/
theorem sameDict_hasKey (d e : Dict) (h : sameDict d e = true) (k : String) :
    hasKey d k = hasKey e k := by
  rw [Bool.eq_iff_iff]
  constructor
  · intro hk
    simp only [sameDict, eq, Bool.and_eq_true] at h
    obtain ⟨v, hv⟩ := Option.isSome_iff_exists.mp hk
    obtain ⟨w, hw, -⟩ := eqMembers_mem d e h.2 k v (lookup_mem d k v hv)
    simp [hasKey, hw]
  · intro hk
    obtain ⟨w, hw⟩ := Option.isSome_iff_exists.mp hk
    obtain ⟨v, hv, -⟩ := sameDict_lookup d e h k w hw
    simp [hasKey, hv]

end Value

end ParallelForge.Base
