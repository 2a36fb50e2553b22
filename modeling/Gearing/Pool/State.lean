import Gearing.Outcome
import Gearing.Reserve
import Gearing.Table

/-!
What a lending pool holds, and what can be read off it.

Balances are stored divided by the index of their reserve, so a position is read back through
`rayMul`. A journal belongs to an open checkpoint of one account and lists, newest first, what was
done for that account since.
-/
namespace Gearing

/-- Balances of one account on one reserve, before the indices. -/
structure Balance where
  deposit : Word := 0
  debt : Word := 0
  collateral : Bool := false
  deriving DecidableEq, Repr, Inhabited

/-- Whether a deposit turns the balance into collateral. -/
def Balance.enables (b : Balance) : Bool := !b.collateral && b.deposit == 0

def Balance.credit (b : Balance) (scaled : Word) : Balance :=
  { b with deposit := b.deposit + scaled, collateral := b.collateral || b.enables }

def Balance.debit (b : Balance) (scaled : Word) : Balance := { b with debt := b.debt + scaled }

/-- Flash liquidity that is out. -/
structure Loan where
  asset : Address
  amount : Word
  fee : Word
  account : Address
  deriving DecidableEq, Repr

/-- What the borrower of flash liquidity holds. -/
structure Ticket where
  id : Nat
  asset : Address
  amount : Word
  fee : Word
  deriving DecidableEq, Repr

def Ticket.owed (t : Ticket) : Word := t.amount + t.fee

/-- One thing that was done, with what it takes to undo it. -/
inductive Entry where
  | deposit (asset account : Address) (scaled amount : Word) (enabledCollateral : Bool)
  | borrow (asset account : Address) (scaled amount : Word) (delegatee : Address)
      (allowanceUsed : Word)
  | acquire (ticket : Nat) (asset : Address) (amount : Word)
  | repay (asset : Address) (amount fee : Word)
  deriving DecidableEq, Repr

structure Journal where
  account : Address
  entries : List Entry := []
  deriving DecidableEq, Repr

structure Pool where
  /-- Fee on flash liquidity, in basis points. -/
  feeBps : Nat
  wrappedNative : Address := .zero
  /-- In listing order. -/
  reserves : List Reserve := []
  /-- By account and asset. -/
  balances : Table (Address × Address) Balance := .empty
  /-- By account, delegatee and asset. -/
  allowances : Table (Address × Address × Address) Word := .empty
  loans : Table Nat Loan := .empty
  fees : Table Address Word := .empty
  journals : Table Nat Journal := .empty
  /-- The open checkpoint of each account that has one. -/
  opened : Table Address Nat := .empty
  wrapped : Word := 0
  lastTicket : Nat := 0
  lastCheckpoint : Nat := 0
  deriving DecidableEq

abbrev PoolM (α : Type) := Action PoolError Pool α

namespace Pool

def reserve? (p : Pool) (asset : Address) : Option Reserve :=
  p.reserves.find? (·.asset = asset)

def balance (p : Pool) (account asset : Address) : Balance :=
  p.balances.getD (account, asset) {}

def allowance (p : Pool) (account delegatee asset : Address) : Word :=
  p.allowances.getD (account, delegatee, asset) 0

def feesCollected (p : Pool) (asset : Address) : Word := p.fees.getD asset 0

def flashFee (p : Pool) (amount : Word) : Word := FixedPoint.applyBps amount p.feeBps

def reserve (asset : Address) : PoolM Reserve := do
  match (← get).reserve? asset with
  | some r => return r
  | none => Action.refuse (.unknownReserve asset)

def activeReserve (asset : Address) : PoolM Reserve := do
  let r ← reserve asset
  if r.active then return r else Action.refuse (.reserveInactive asset)

/-- Deposited and borrowed totals of an account, with the indices of the reserve applied. -/
def totals (p : Pool) (account : Address) (r : Reserve) : Word × Word :=
  let b := p.balance account r.asset
  (FixedPoint.rayMul b.deposit r.liquidityIndex, FixedPoint.rayMul b.debt r.borrowIndex)

def position (account asset : Address) : PoolM Position := do
  let r ← reserve asset
  let (deposited, borrowed) := (← get).totals account r
  return { account, asset, deposited, borrowed }

def holding? (p : Pool) (account : Address) (r : Reserve) : Option Holding :=
  let b := p.balance account r.asset
  if b.deposit = 0 ∧ b.debt = 0 then none
  else some {
    asset := r.asset
    collateral := (p.totals account r).1
    debt := (p.totals account r).2
    price := r.price
    decimals := r.decimals
    ltvBps := r.ltvBps
    liquidationThresholdBps := r.liquidationThresholdBps
    collateralEnabled := b.collateral }

/-- Every reserve that the account has a balance on, in listing order. -/
def snapshot (p : Pool) (account : Address) : Snapshot :=
  ⟨account, p.reserves.filterMap (p.holding? account)⟩

def borrowAllowance (account delegatee asset : Address) : PoolM Word := do
  let _ ← reserve asset
  return (← get).allowance account delegatee asset

def mapReserve (p : Pool) (asset : Address) (f : Reserve → Reserve) : Pool :=
  { p with reserves := p.reserves.map fun r => if r.asset = asset then f r else r }

def mapLiquidity (p : Pool) (asset : Address) (f : Word → Word) : Pool :=
  p.mapReserve asset fun r => { r with liquidity := f r.liquidity }

def addLiquidity (p : Pool) (asset : Address) (amount : Word) : Pool :=
  p.mapLiquidity asset (· + amount)

def takeLiquidity (p : Pool) (asset : Address) (amount : Word) : Pool :=
  p.mapLiquidity asset (· - amount)

/-- Takes liquidity back that may have been lent out since; what is missing is left at zero. -/
def reclaimLiquidity (p : Pool) (asset : Address) (amount : Word) : Pool :=
  p.mapLiquidity asset (Word.clampSub · amount)

def setBalance (p : Pool) (account asset : Address) (b : Balance) : Pool :=
  { p with balances := p.balances.set (account, asset) b }

def setAllowance (p : Pool) (account delegatee asset : Address) (amount : Word) : Pool :=
  { p with allowances := p.allowances.set (account, delegatee, asset) amount }

end Pool
end Gearing
