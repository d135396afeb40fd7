import ParallelForge.Brainstorm.Charges
import ParallelForge.Quota.Pool
import ParallelForge.Scheduling.Contract

/-!
# Monetary evidence (`persistence/repositories/epic_brainstorm.py:331-461`)

Minor units of different currencies do not add up. A cost counts for a unit
when its attempt has a route and a quota pool that prove it.
-/

namespace ParallelForge.Brainstorm
open Base Quota Scheduling
open Value hiding none

abbrev MoneyScope := RouteSpec × QuotaPoolKey

/-- `_LABEL.fullmatch`. -/
def isLabel (text : String) : Bool :=
  let lowerDigit (c : Char) : Bool := ('a' ≤ c && c ≤ 'z') || ('0' ≤ c && c ≤ '9')
  match text.toList with
  | [] => false
  | c :: rest => lowerDigit c && rest.length ≤ 95 &&
      rest.all fun c => lowerDigit c || c == '_' || c == '.' || c == '-'

/-- `QuotaPoolKey(...)` raises or not. -/
def validKey (key : QuotaPoolKey) : Bool :=
  isLabel key.provider && isLabel key.account && isLabel key.pool

/-- `_attempt_scopes`: the route of the attempt's job, and the pool it was admitted to. -/
def attemptScope (route : Option RouteSpec) (admission : Option QuotaPoolKey) :
    Option MoneyScope :=
  match route, admission with
  | some route, some key =>
    if validKey key && key.provider == route.provider then some (route, key) else none
  | _, _ => none

/-- `_currency`. -/
def currencyOf (value : Value) : Option String :=
  match value with
  | .str text =>
    if text.length == 3 && text.toList.all (fun c => 'A' ≤ c && c ≤ 'Z') then some text else none
  | _ => none

section attempt
variable (a : Attempt)

def Attempt.rawCost : Value := get a.usageDict "estimated_api_cost_minor"

def Attempt.observedCost : Option ℤ := boundedMeasurement a.rawCost

def Attempt.positiveCost : Bool := a.observedCost.any fun cost => 0 < cost

def Attempt.rawReserve : Value := get a.reservationDict "estimated_api_cost_minor"

/-- Only a trusted terminal measurement discharges uncertainty. -/
def Attempt.exposed : Bool :=
  !(a.processSettled && a.usageKnown == some true && a.observedCost.isSome)

def Attempt.hasMoney : Bool := a.positiveCost || a.exposed

def Attempt.rawCurrency : Value := get a.usageDict "currency"

/-- The currency an attempt with money reports. -/
def Attempt.reportedUnit : Option String :=
  if a.hasMoney then currencyOf a.rawCurrency else none

/-- The currency of a positive cost. -/
def Attempt.costUnit : Option String := if a.positiveCost then a.reportedUnit else none

def Attempt.holdsMoney : Bool := a.exposed || 0 < (a.charge .estimatedApiCostMinor).held

def Attempt.malformedReservation : Bool :=
  match a.reservation with
  | .none => false
  | .dict _ => !isNone a.rawReserve && (boundedMeasurement a.rawReserve).isNone
  | _ => true

/-- What makes the money of one attempt unsafe. -/
def Attempt.unsafeMoney (scope : Option MoneyScope) : Bool :=
  (!isNone a.rawCost && a.observedCost.isNone) || a.malformedReservation ||
    (a.hasMoney && ((!isNone a.rawCurrency && (currencyOf a.rawCurrency).isNone) ||
      (a.positiveCost && (currencyOf a.rawCurrency).isNone))) ||
    (a.costUnit.isSome && scope.isNone) || (a.holdsMoney && scope.isNone)

end attempt

structure MoneyEvidence where
  unit : Option String
  isUnsafe : Bool
  compatible : List MoneyScope
  heldRoutes : List MoneyScope
  hasMoney : Bool
  unknownHold : Bool

/-- `_money_evidence`, of attempts with their scopes. -/
def moneyEvidence (attempts : List (Attempt × Option MoneyScope)) : MoneyEvidence :=
  let units := (attempts.filterMap fun p => p.1.costUnit).dedup
  let reported := (attempts.filterMap fun p => p.1.reportedUnit).dedup
  let proved := attempts.filterMap fun p => p.1.costUnit.bind fun unit =>
    p.2.map fun scope => (scope, unit)
  let heldRoutes := (attempts.filter fun p => p.1.holdsMoney).filterMap Prod.snd
  let unit := match units with
    | [unit] => some unit
    | _ => none
  let compatible := (proved.map Prod.fst).filter fun scope =>
    proved.all fun q => q.1 != scope || some q.2 == unit
  { unit := unit
    isUnsafe := (attempts.any fun p => p.1.unsafeMoney p.2) || 1 < reported.length ||
      (unit.isSome && !(heldRoutes.all fun scope => compatible.contains scope))
    compatible := compatible
    heldRoutes := heldRoutes
    hasMoney := attempts.any fun p => p.1.hasMoney
    unknownHold := attempts.any fun p => p.1.exposed && isNone p.1.rawReserve }

end ParallelForge.Brainstorm
