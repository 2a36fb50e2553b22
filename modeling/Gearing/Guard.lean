import Gearing.Outcome
import Gearing.Reserve

/-!
The health check of an account across every reserve it takes part in.

Collateral counts where it is enabled. A run that borrowed has to stay within the borrow capacity,
and every account with debt has to keep its health factor at the floor or above.
-/
namespace Gearing

/-- Health of an account, in values with 18 decimals. -/
structure HealthReport where
  collateral : Word
  debt : Word
  capacity : Word
  /-- The greatest word when there is no debt. -/
  healthFactor : Word
  deriving DecidableEq, Repr

/-- The health factor for display; an account without debt has none. -/
def HealthReport.display (r : HealthReport) : Option Binary64 :=
  if r.healthFactor = Word.greatest then none else some (FixedPoint.toFloat r.healthFactor)

structure Guard where
  /-- The lowest health factor that passes. -/
  floor : Word := FixedPoint.wad
  deriving DecidableEq, Repr

namespace Guard

def ofFloat (x : Binary64) : Guard := ⟨FixedPoint.ofFloat x⟩

/-- Value of the enabled collateral of one holding. -/
def collateralValue (h : Holding) : Word :=
  if h.collateralEnabled then FixedPoint.value h.collateral h.price h.decimals else 0

def debtValue (h : Holding) : Word := FixedPoint.value h.debt h.price h.decimals

def weighted (weight : Holding → Nat) (hs : List Holding) : Word :=
  Word.sum (hs.map fun h => collateralValue h * BitVec.ofNat 256 (weight h))

def assess (s : Snapshot) : Except Trap HealthReport := do
  let debt := Word.sum (s.holdings.map debtValue)
  let factor ← FixedPoint.healthFactor (weighted (·.liquidationThresholdBps) s.holdings) debt
  return {
    collateral := Word.sum (s.holdings.map collateralValue)
    debt
    capacity := weighted (·.ltvBps) s.holdings / FixedPoint.bps
    healthFactor := factor }

/-- Whether a report passes; `borrowed` says that the run took on debt. -/
def accepts (g : Guard) (borrowed : Bool) (r : HealthReport) : Bool :=
  r.debt = 0 || (!borrowed || r.debt ≤ r.capacity) && g.floor ≤ r.healthFactor

def check (g : Guard) (borrowed : Bool) (s : Snapshot) : Except (Halt EngineError) HealthReport :=
  match assess s with
  | .error t => .error (.trapped t)
  | .ok r =>
    if g.accepts borrowed r then .ok r
    else .error (.refused (.insufficientCollateral r.debt r.capacity r.healthFactor g.floor))

/-- The largest borrow that stays within `maxLtv` once it is supplied again. -/
def maxSingleBorrow (principal : Word) (maxLtv : Nat) : Except EngineError Word :=
  if scale ≤ maxLtv then .error (.invalid (.ltvTooHigh maxLtv))
  else .ok (principal * BitVec.ofNat 256 maxLtv / BitVec.ofNat 256 (scale - maxLtv))

end Guard
end Gearing
