import Gearing.Address
import Gearing.Stage
import Gearing.Leverage

/-!
Causes of refusal, and the one wording of each.

`PoolError` is what the pool and its flash and native sides refuse with. `EngineError` is what the
solver, the guard and the executor refuse with; `EngineError.ofPool` says how a refusal of the pool
reads from there.
-/
namespace Gearing

/-- Requests and settings that contradict themselves or their bounds. -/
inductive Invalid where
  | belowOneFold
  | noPrincipal
  | ltvTooHigh (ltv : Nat)
  | foreignConstraint (constraint request : Address)
  | trancheOverflow
  | ratioTooHigh (ratio : Nat)
  | tooManyLoops (loops bound : Nat)
  | noGateway
  | attachedOverflow
  | unmatchedValue (attached nearest : Word)
  | illegalStage (current next : Stage)
  | noLoops
  | noEpsilon
  | noIterations
  | feeTooHigh (rate : Nat)
  | noHealthFloor
  deriving DecidableEq, Repr

def Invalid.message : Invalid → String
  | belowOneFold => "leverage below 1x"
  | noPrincipal => "principal must be positive"
  | ltvTooHigh ltv => "max LTV " ++ toString ltv ++ " must be below " ++ toString scale
  | foreignConstraint c r => "constraint for " ++ c.checksum ++ " does not apply to " ++ r.checksum
  | trancheOverflow => "tranche amount overflows"
  | ratioTooHigh ratio => "borrow ratio " ++ toString ratio ++ " exceeds " ++ toString scale
  | tooManyLoops loops bound => "loop count " ++ toString loops ++ " exceeds " ++ toString bound
  | noGateway => "no native gateway configured"
  | attachedOverflow => "attached value overflows"
  | unmatchedValue attached nearest =>
    "attached value " ++ Word.decimal attached ++ " matches no principal; nearest valid value is " ++
      Word.decimal nearest
  | illegalStage current next => "illegal transition " ++ current.name ++ " -> " ++ next.name
  | noLoops => "max_loop_count must be at least 1"
  | noEpsilon => "epsilon must be positive"
  | noIterations => "max_iterations must be at least 1"
  | feeTooHigh rate => "flash fee " ++ toString rate ++ " bps must be below " ++ toString scale
  | noHealthFloor => "min_health_factor must be positive"

inductive GatewayError where
  | shortSupply (requested wrapped : Word)
  | injected
  deriving DecidableEq, Repr

def GatewayError.message : GatewayError → String
  | shortSupply requested wrapped =>
    "cannot unwrap " ++ Word.decimal requested ++ " with " ++ Word.decimal wrapped ++ " wrapped"
  | injected => "injected"

inductive PoolError where
  | unknownReserve (asset : Address)
  | reserveInactive (asset : Address)
  | borrowingDisabled (asset : Address)
  | insufficientLiquidity (asset : Address) (requested available : Word)
  | insufficientAllowance (asset : Address) (required available : Word)
  | flashUnderpaid (ticket : Nat) (expected paid : Word)
  | unknownTicket (ticket : Nat)
  | checkpointOpen (account : Address)
  | unknownCheckpoint (checkpoint : Nat)
  | native (cause : GatewayError)
  deriving DecidableEq, Repr

def PoolError.message : PoolError → String
  | unknownReserve asset => "unknown reserve " ++ asset.checksum
  | reserveInactive asset => "reserve " ++ asset.checksum ++ " is not active"
  | borrowingDisabled asset => "borrowing is disabled on reserve " ++ asset.checksum
  | insufficientLiquidity asset requested available =>
    "insufficient liquidity in " ++ asset.checksum ++ ": requested " ++ Word.decimal requested ++
      ", available " ++ Word.decimal available
  | insufficientAllowance asset required available =>
    "borrow allowance for " ++ asset.checksum ++ " too low: required " ++ Word.decimal required ++
      ", available " ++ Word.decimal available
  | flashUnderpaid ticket expected paid =>
    "flash ticket " ++ toString ticket ++ " underpaid: expected " ++ Word.decimal expected ++
      ", paid " ++ Word.decimal paid
  | unknownTicket ticket => "unknown flash ticket " ++ toString ticket
  | checkpointOpen account => "account " ++ account.checksum ++ " already has an open checkpoint"
  | unknownCheckpoint checkpoint => "unknown checkpoint " ++ toString checkpoint
  | native cause => "native gateway: " ++ cause.message

inductive EngineError where
  | invalid (cause : Invalid)
  | convergence (target loopCount iterations closest : Nat)
  | leverageTooHigh (target maxAchievable maxLoopCount : Nat)
  | inactiveReserve (asset : Address) (active borrowingEnabled : Bool)
  | insufficientDelegation (asset : Address) (required available : Word)
  | insufficientCollateral (debt capacity healthFactor floor : Word)
  | settlement (expected remaining : Word)
  | rollbackFailed (cause : EngineError) (rollback : PoolError)
  | pool (cause : PoolError)
  deriving DecidableEq, Repr

def EngineError.message : EngineError → String
  | invalid cause => "validation failed: " ++ cause.message
  | convergence target loopCount iterations closest =>
    "no borrow ratio within epsilon of " ++ toString target ++ " at " ++ toString loopCount ++
      " loops after " ++ toString iterations ++ " iterations (closest " ++ toString closest ++ ")"
  | leverageTooHigh target maxAchievable maxLoopCount =>
    "target leverage " ++ toString target ++ " exceeds " ++ toString maxAchievable ++
      " achievable in " ++ toString maxLoopCount ++ " loops"
  | inactiveReserve asset active borrowingEnabled =>
    "reserve " ++ asset.checksum ++ " not usable (active: " ++ toString active ++
      ", borrowing enabled: " ++ toString borrowingEnabled ++ ")"
  | insufficientDelegation asset required available =>
    "borrow delegation on " ++ asset.checksum ++ " too low: required " ++ Word.decimal required ++
      ", available " ++ Word.decimal available
  | insufficientCollateral debt capacity healthFactor floor =>
    "insufficient collateral: debt " ++ Word.decimal debt ++ ", borrow capacity " ++
      Word.decimal capacity ++ ", health factor " ++ Word.decimal healthFactor ++ " (min " ++
      Word.decimal floor ++ ")"
  | settlement expected remaining =>
    "flash settlement left " ++ Word.decimal remaining ++ " of " ++ Word.decimal expected ++
      " unaccounted"
  | rollbackFailed cause rollback =>
    "rollback failed after " ++ cause.message ++ ": " ++ rollback.message
  | pool cause => cause.message

/-- A refusal of the pool as the engine reports it: a short allowance is a short delegation, and a
reserve that is shut or not lent is an inactive one. -/
def EngineError.ofPool : PoolError → EngineError
  | .insufficientAllowance asset required available =>
    .insufficientDelegation asset required available
  | .reserveInactive asset => .inactiveReserve asset false false
  | .borrowingDisabled asset => .inactiveReserve asset true false
  | cause => .pool cause

end Gearing
