import Gearing.Error
import Gearing.FixedPoint

/-!
The tranches of a run in absolute amounts: a principal, then what each loop borrows and supplies
again. Every sum of tranches wraps; only the tranches of a plan are checked as they are built.
-/
namespace Gearing

structure Schedule where
  principal : Word
  borrows : List Word
  deriving DecidableEq, Repr

namespace Schedule

/-- `loops` tranches after one of `each`, each `ratio / scale` of the one before it. -/
def tail? (ratio : Nat) : Nat → Word → Option (List Word)
  | 0, _ => some []
  | loops + 1, each =>
    match Word.mul? each (BitVec.ofNat 256 ratio) with
    | none => none
    | some product =>
      let next := product / FixedPoint.bps
      (tail? ratio loops next).map (next :: ·)

def ofPlan (principal : Word) (plan : Plan) : Except EngineError Schedule :=
  match tail? plan.borrowRatio plan.loopCount principal with
  | some borrows => .ok ⟨principal, borrows⟩
  | none => .error (.invalid .trancheOverflow)

def single (principal borrow : Word) : Schedule := ⟨principal, [borrow]⟩

def tranches (s : Schedule) : List Word := s.principal :: s.borrows

def loopCount (s : Schedule) : Nat := s.borrows.length

/-- The sum of the borrowed tranches, which is also the flash amount. -/
def totalBorrow (s : Schedule) : Word := Word.sum s.borrows

def totalDeposit (s : Schedule) : Word := s.principal + s.totalBorrow

def flashFee (s : Schedule) (rate : Nat) : Word := FixedPoint.applyBps s.totalBorrow rate

end Schedule
end Gearing
