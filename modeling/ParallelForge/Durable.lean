import ParallelForge.Base.Result
import ParallelForge.Base.Text

/-!
# Durable text and leases (`domain/payload.py`, `domain/lease.py`)

The credential patterns and the JSONB columns are kept abstract: every result
holds for whatever texts the patterns match, and for whatever a column gives
back. A durable payload stands for its canonical JSON text; the types that carry
one have validated it before a store sees it.
-/

namespace ParallelForge
open Base

/-- `canonical_payload` of a validated payload. -/
abbrev Payload := String

structure Durability where
  containsCredential : String → Bool
  redactDurableText : String → String
  /-- The canonical text of what a JSONB column gives back for a payload. It need
  not be the text that was written: the number `1e+16` comes back as an integer.
  A payload that the column refuses (`\u0000`, a lone surrogate) has none. -/
  jsonb : Payload → Option Payload

/-- `validate_durable_error`: short enough and free of credentials. -/
def validDurableError (red : Durability) (error : Option String) : Bool :=
  error.all fun e => e.length ≤ 1024 && !red.containsCredential e

/-- `_bounded_error`. -/
def boundedError (red : Durability) (error : String) : String :=
  String.ofList ((red.redactDurableText error).toList.take 1024)

/-- `validate_lease_seconds`: from one second to a day, in microseconds. -/
def validLease (lease : ℤ) : Bool := 1000000 ≤ lease && lease ≤ 86400000000

end ParallelForge
