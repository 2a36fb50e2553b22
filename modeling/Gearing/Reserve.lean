import Gearing.Solver
import Gearing.FixedPoint

/-!
Reserves of a lending pool, positions on them, and the view of an account across all of them.
-/
namespace Gearing

structure Reserve where
  asset : Address
  symbol : String
  decimals : Nat
  ltvBps : Nat := 0
  liquidationThresholdBps : Nat := 0
  liquidationBonusBps : Nat := 0
  active : Bool := true
  borrowingEnabled : Bool := true
  /-- In base currency, with 8 decimals. -/
  price : Word := BitVec.ofNat 256 (10 ^ 8)
  liquidityIndex : Word := FixedPoint.ray
  borrowIndex : Word := FixedPoint.ray
  /-- Underlying that is free to lend. -/
  liquidity : Word := 0
  deriving DecidableEq, Repr

def Reserve.isBorrowable (r : Reserve) : Bool := r.active && r.borrowingEnabled

/-- A change of some fields of a reserve. -/
structure ReservePatch where
  decimals : Option Nat := none
  ltvBps : Option Nat := none
  liquidationThresholdBps : Option Nat := none
  active : Option Bool := none
  borrowingEnabled : Option Bool := none
  price : Option Word := none
  liquidityIndex : Option Word := none
  borrowIndex : Option Word := none
  liquidity : Option Word := none
  deriving DecidableEq, Repr

def Reserve.patch (r : Reserve) (c : ReservePatch) : Reserve :=
  { r with
    decimals := c.decimals.getD r.decimals
    ltvBps := c.ltvBps.getD r.ltvBps
    liquidationThresholdBps := c.liquidationThresholdBps.getD r.liquidationThresholdBps
    active := c.active.getD r.active
    borrowingEnabled := c.borrowingEnabled.getD r.borrowingEnabled
    price := c.price.getD r.price
    liquidityIndex := c.liquidityIndex.getD r.liquidityIndex
    borrowIndex := c.borrowIndex.getD r.borrowIndex
    liquidity := c.liquidity.getD r.liquidity }

theorem Reserve.asset_patch (r : Reserve) (c : ReservePatch) : (r.patch c).asset = r.asset := rfl

def Constraint.ofReserve (r : Reserve) : Except EngineError Constraint :=
  Constraint.make r.asset r.ltvBps

/-- Balances of one account on one reserve, with the indices applied. -/
structure Position where
  account : Address
  asset : Address
  deposited : Word
  borrowed : Word
  deriving DecidableEq, Repr

/-- Balances on a reserve beside its risk parameters. -/
structure Holding where
  asset : Address
  collateral : Word
  debt : Word
  price : Word
  decimals : Nat
  ltvBps : Nat
  liquidationThresholdBps : Nat
  /-- Whether the supplied balance counts as collateral. -/
  collateralEnabled : Bool := true
  deriving DecidableEq, Repr

structure Snapshot where
  account : Address
  holdings : List Holding
  deriving DecidableEq, Repr

def Snapshot.holding? (s : Snapshot) (asset : Address) : Option Holding :=
  s.holdings.find? (·.asset = asset)

end Gearing
