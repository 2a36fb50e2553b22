import Gearing.Pool.Journal

/-!
The operations of a pool, each one as a program and all of them as data.

`Pool.Op` is one operation and `Pool.apply` carries it out. `Pool.after` is the pool that an
operation leaves, whatever it answers, and `Pool.history` folds it over a list.
-/
namespace Gearing.Pool

/-- Lists a reserve; one of the same asset is replaced where it stands. -/
def list (p : Pool) (r : Reserve) : Pool :=
  if (p.reserve? r.asset).isSome then p.mapReserve r.asset fun _ => r
  else { p with reserves := p.reserves ++ [r] }

def updateReserve (asset : Address) (c : ReservePatch) : PoolM Unit := do
  let _ ← reserve asset
  modify (·.mapReserve asset (·.patch c))

/-- Lendable liquidity from outside any account. -/
def supply (asset : Address) (amount : Word) : PoolM Unit := do
  let _ ← reserve asset
  modify (·.addLiquidity asset amount)

/-- The pool with `amount` supplied for the account, where it counts for `scaled`. -/
def credit (p : Pool) (asset : Address) (amount scaled : Word) (account : Address) : Pool :=
  let b := p.balance account asset
  let q := (p.addLiquidity asset amount).setBalance account asset (b.credit scaled)
  q.record account (.deposit asset account scaled amount b.enables)

def deposit (asset : Address) (amount : Word) (account : Address) : PoolM Unit := do
  let r ← activeReserve asset
  let scaled ← Action.ofTrap (FixedPoint.rayDiv amount r.liquidityIndex)
  modify (·.credit asset amount scaled account)

/-- Spends the allowance of a delegatee and says how much that was; an account needs none for itself. A
look-up that finds no entry does not enter a zero for it: a missing entry reads as zero anyhow, so no
one can tell after a refused borrow. -/
def spendAllowance (account delegatee asset : Address) (amount : Word) : PoolM Word := do
  if delegatee = account then return 0
  else
    let p ← get
    let available := p.allowance account delegatee asset
    if available < amount then Action.refuse (.insufficientAllowance asset amount available)
    else
      set (p.setAllowance account delegatee asset (available - amount))
      return amount

/-- The pool with `amount` lent to the account, which owes `scaled` for it; `used` of the delegatee's
allowance is spent already. -/
def debit (p : Pool) (asset : Address) (amount scaled : Word) (delegatee account : Address)
    (used : Word) : Pool :=
  let b := (p.balance account asset).debit scaled
  let q := (p.takeLiquidity asset amount).setBalance account asset b
  q.record account (.borrow asset account scaled amount delegatee used)

/-- Borrows at a variable rate on the account of `account`. Health is not looked at here. -/
def borrow (asset : Address) (amount : Word) (delegatee account : Address) : PoolM Unit := do
  let r ← activeReserve asset
  if !r.borrowingEnabled then Action.refuse (.borrowingDisabled asset)
  else if r.liquidity < amount then
    Action.refuse (.insufficientLiquidity asset amount r.liquidity)
  else
    let scaled ← Action.ofTrap (FixedPoint.rayDiv amount r.borrowIndex)
    let used ← spendAllowance account delegatee asset amount
    modify (·.debit asset amount scaled delegatee account used)

def issue (p : Pool) (t : Ticket) (account : Address) : Pool :=
  let q := { p.takeLiquidity t.asset t.amount with
    lastTicket := t.id
    loans := p.loans.set t.id ⟨t.asset, t.amount, t.fee, account⟩ }
  q.record account (.acquire t.id t.asset t.amount)

def acquire (asset : Address) (amount : Word) (account : Address) : PoolM Ticket := do
  let r ← activeReserve asset
  if r.liquidity < amount then
    Action.refuse (.insufficientLiquidity asset amount r.liquidity)
  else
    let p ← get
    let ticket : Ticket := ⟨p.lastTicket + 1, asset, amount, p.flashFee amount⟩
    set (p.issue ticket account)
    return ticket

def redeem (p : Pool) (loan : Loan) : Pool :=
  let q := { p.addLiquidity loan.asset (loan.amount + loan.fee) with
    fees := p.fees.set loan.asset (p.feesCollected loan.asset + loan.fee) }
  q.record loan.account (.repay loan.asset loan.amount loan.fee)

/-- Takes flash liquidity back with its fee. The ticket stays out when too little is paid: its loan is
taken out after that check, which leaves the loans that taking it out first and putting it back would. -/
def repay (ticket : Nat) (paid : Word) : PoolM Unit := do
  let p ← get
  match p.loans.get? ticket with
  | none => Action.refuse (.unknownTicket ticket)
  | some loan =>
    let owed := loan.amount + loan.fee
    if paid < owed then Action.refuse (.flashUnderpaid ticket owed paid)
    else
      set { p with loans := p.loans.erase ticket }
      let _ ← reserve loan.asset
      modify (·.redeem loan)

def wrap (amount : Word) : PoolM Unit :=
  modify fun p => { p with wrapped := p.wrapped + amount }

def unwrap (amount : Word) : PoolM Unit := do
  let p ← get
  if p.wrapped < amount then Action.refuse (.native (.shortSupply amount p.wrapped))
  else set { p with wrapped := p.wrapped - amount }

inductive Op where
  | list (r : Reserve)
  | updateReserve (asset : Address) (change : ReservePatch)
  | supply (asset : Address) (amount : Word)
  | approve (account delegatee asset : Address) (amount : Word)
  | deposit (asset : Address) (amount : Word) (account : Address)
  | borrow (asset : Address) (amount : Word) (delegatee account : Address)
  | checkpoint (account : Address)
  | revert (id : Nat)
  | commit (id : Nat)
  | acquire (asset : Address) (amount : Word) (account : Address)
  | repay (ticket : Nat) (paid : Word)
  | wrap (amount : Word)
  | unwrap (amount : Word)
  deriving DecidableEq, Repr

inductive Answer where
  | done
  | checkpoint (id : Nat)
  | ticket (t : Ticket)
  deriving DecidableEq, Repr

def apply : Op → PoolM Answer
  | .list r => do
    modify (·.list r)
    return .done
  | .updateReserve asset c => do
    updateReserve asset c
    return .done
  | .supply asset amount => do
    supply asset amount
    return .done
  | .approve account delegatee asset amount => do
    modify (·.setAllowance account delegatee asset amount)
    return .done
  | .deposit asset amount account => do
    deposit asset amount account
    return .done
  | .borrow asset amount delegatee account => do
    borrow asset amount delegatee account
    return .done
  | .checkpoint account => return .checkpoint (← checkpoint account)
  | .revert id => do
    revert id
    return .done
  | .commit id => do
    commit id
    return .done
  | .acquire asset amount account => return .ticket (← acquire asset amount account)
  | .repay ticket paid => do
    repay ticket paid
    return .done
  | .wrap amount => do
    wrap amount
    return .done
  | .unwrap amount => do
    unwrap amount
    return .done

def after (p : Pool) (op : Op) : Pool :=
  match apply op p with
  | .ok _ q => q
  | .error _ q => q

def history (p : Pool) (ops : List Op) : Pool := ops.foldl after p

theorem history_append (p : Pool) (xs ys : List Op) :
    history p (xs ++ ys) = history (history p xs) ys := by
  simp [history]

end Gearing.Pool
