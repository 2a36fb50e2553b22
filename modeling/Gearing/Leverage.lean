import Gearing.Power

/-!
The geometric leverage of repeated borrowing.

Each loop borrows `ratio / scale` of the tranche before it and supplies it again, so the exposure is
a truncated geometric series. Tranches and sums are 64-bit numbers that stop at `limit`.
-/
namespace Gearing

/-- Ratios and leverages are in units of `1 / scale`. -/
def scale : Nat := 10000

namespace Leverage

/-- The greatest 64-bit number, where products and sums stop. -/
def limit : Nat := 2 ^ 64 - 1

def nextTranche (ratio each : Nat) : Nat := min (each * ratio) limit / scale

/-- `total` plus the tranches that `loops` further rounds add after a tranche of `each`. -/
def grow (ratio : Nat) : Nat → Nat → Nat → Nat
  | 0, _, total => total
  | loops + 1, each, total =>
    let next := nextTranche ratio each
    if next = 0 then total else grow ratio loops next (min (total + next) limit)

/-- Exposure after `loops` rounds at a borrow ratio of `ratio`, for a principal of `scale`. -/
def leverage (loops ratio : Nat) : Nat := grow ratio loops scale scale

/-- Where the leverage goes as the number of loops grows: nowhere from a ratio of one on. -/
def asymptote (ratio : Nat) : Option Nat :=
  if scale ≤ ratio then none else some (scale * scale / (scale - ratio))

theorem leverage_zero (ratio : Nat) : leverage 0 ratio = scale := rfl

end Leverage

/-- Number of loops and the share of each tranche that the next one borrows. -/
structure Plan where
  loopCount : Nat
  borrowRatio : Nat
  deriving DecidableEq, Repr

def Plan.leverage (p : Plan) : Nat := Leverage.leverage p.loopCount p.borrowRatio

end Gearing
