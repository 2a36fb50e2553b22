import Gearing.Error

/-!
Leverage inverted: the fewest loops that reach a target within the loan-to-value limit, then the
borrow ratio by bisection at that loop count.

At high limits one step of the ratio can jump over the window around the target, so loop counts
beyond the first are tried in turn until one lands in the window.
-/
namespace Gearing

/-- Bounds of the search. -/
structure Bounds where
  maxLoopCount : Nat := 40
  epsilon : Nat := 100
  maxIterations : Nat := 100
  deriving DecidableEq, Repr

namespace Solver
open Leverage

def distance (a b : Nat) : Nat := (a - b) + (b - a)

/-- A bisection that ended outside the window: its steps, and the leverage nearest to the target. -/
structure Miss where
  iterations : Nat
  closest : Nat
  deriving DecidableEq, Repr

/-- The nearer of two leverages, the first one on a tie. -/
def nearer (target closest value : Nat) : Nat :=
  if distance value target < distance closest target then value else closest

/-- Bisection between `lo` and `hi` with `budget` steps left. -/
def bisect (epsilon target loops : Nat) : Nat → Nat → Nat → Miss → Except Miss Nat
  | 0, _, _, miss => .error miss
  | budget + 1, lo, hi, miss =>
    let mid := lo + (hi - lo) / 2
    let value := leverage loops mid
    let miss := ⟨miss.iterations + 1, nearer target miss.closest value⟩
    if distance value target ≤ epsilon then .ok mid
    else if value < target then
      if hi < mid + 1 then .error miss
      else bisect epsilon target loops budget (mid + 1) hi miss
    else if mid = 0 then .error miss
    else if mid - 1 < lo then .error miss
    else bisect epsilon target loops budget lo (mid - 1) miss

/-- A borrow ratio of at most `maxLtv` that puts `loops` loops within the window. -/
def ratio (b : Bounds) (target maxLtv loops : Nat) : Except Miss Nat :=
  bisect b.epsilon target loops b.maxIterations 0 maxLtv ⟨0, scale⟩

/-- The first of `count` loop counts from `n` on at which the limit reaches the target. -/
def firstReaching (target maxLtv : Nat) : Nat → Nat → Option Nat
  | 0, _ => none
  | count + 1, n =>
    if target ≤ leverage n maxLtv then some n else firstReaching target maxLtv count (n + 1)

/-- What the loop counts tried so far came to. -/
structure Tally where
  iterations : Nat
  nearest : Option (Nat × Nat)
  deriving DecidableEq, Repr

def Tally.add (target loops : Nat) (t : Tally) (miss : Miss) : Tally where
  iterations := t.iterations + miss.iterations
  nearest :=
    match t.nearest with
    | none => some (loops, miss.closest)
    | some (l, c) =>
      if distance miss.closest target < distance c target then some (loops, miss.closest)
      else some (l, c)

/-- Bisection at each of `count` loop counts from `n` on, until one succeeds. -/
def search (b : Bounds) (target maxLtv : Nat) : Nat → Nat → Tally → Except Tally Plan
  | 0, _, t => .error t
  | count + 1, n, t =>
    match ratio b target maxLtv n with
    | .ok r => .ok ⟨n, r⟩
    | .error miss => search b target maxLtv count (n + 1) (t.add target n miss)

def maxAchievable (b : Bounds) (maxLtv : Nat) : Nat := leverage b.maxLoopCount maxLtv

/-- A plan whose leverage is within the window around `target`. -/
def solve (b : Bounds) (target maxLtv : Nat) : Except EngineError Plan :=
  if scale ≤ maxLtv then .error (.invalid (.ltvTooHigh maxLtv))
  else if target < scale then .error (.invalid .belowOneFold)
  else if target = scale then .ok ⟨0, 0⟩
  else if target ≤ scale + maxLtv then .ok ⟨1, target - scale⟩
  else
    match firstReaching target maxLtv (b.maxLoopCount - 1) 2 with
    | none => .error (.leverageTooHigh target (maxAchievable b maxLtv) b.maxLoopCount)
    | some first =>
      match search b target maxLtv (b.maxLoopCount + 1 - first) first ⟨0, none⟩ with
      | .ok plan => .ok plan
      | .error t =>
        let (loops, closest) := t.nearest.getD (first, scale)
        .error (.convergence target loops t.iterations closest)

end Solver

/-- A wish for `target` leverage on a principal of one asset. -/
structure LeverageRequest where
  asset : Address
  principal : Word
  target : Nat
  deriving DecidableEq, Repr

def LeverageRequest.make (asset : Address) (principal : Word) (target : Nat) :
    Except EngineError LeverageRequest :=
  if principal = 0 then .error (.invalid .noPrincipal)
  else if target < scale then .error (.invalid .belowOneFold)
  else .ok ⟨asset, principal, target⟩

/-- The loan-to-value limit of one asset. -/
structure Constraint where
  asset : Address
  maxLtv : Nat
  deriving DecidableEq, Repr

def Constraint.make (asset : Address) (maxLtv : Nat) : Except EngineError Constraint :=
  if scale ≤ maxLtv then .error (.invalid (.ltvTooHigh maxLtv)) else .ok ⟨asset, maxLtv⟩

def Solver.solveRequest (b : Bounds) (r : LeverageRequest) (c : Constraint) :
    Except EngineError Plan :=
  if r.asset ≠ c.asset then .error (.invalid (.foreignConstraint c.asset r.asset))
  else solve b r.target c.maxLtv

end Gearing
