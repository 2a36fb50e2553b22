import Gearing.Pool.State

/-!
Checkpoints. An account has at most one open checkpoint, and the journal of that checkpoint takes in
what is done for the account. Reverting undoes the journal, newest entry first; committing drops it.
What was done for other accounts stays in both cases.
-/
namespace Gearing.Pool

/-- Adds an entry to the open journal of the account, if there is one. -/
def record (p : Pool) (account : Address) (e : Entry) : Pool :=
  match p.opened.get? account with
  | none => p
  | some id =>
    { p with journals := p.journals.update id fun j => { j with entries := e :: j.entries } }

def undo (p : Pool) : Entry → Pool
  | .deposit asset account scaled amount enabledCollateral =>
    let balances := p.balances.update (account, asset) fun b =>
      { b with
        deposit := Word.clampSub b.deposit scaled
        collateral := b.collateral && !enabledCollateral }
    { p with balances }.reclaimLiquidity asset amount
  | .borrow asset account scaled amount delegatee allowanceUsed =>
    let balances := p.balances.update (account, asset) fun b =>
      { b with debt := Word.clampSub b.debt scaled }
    let p := { p with balances }.addLiquidity asset amount
    if allowanceUsed = 0 then p
    else p.setAllowance account delegatee asset (p.allowance account delegatee asset + allowanceUsed)
  | .acquire ticket asset amount =>
    { p with loans := p.loans.erase ticket }.addLiquidity asset amount
  | .repay asset amount fee =>
    let p := p.reclaimLiquidity asset (amount + fee)
    { p with fees := p.fees.update asset fun collected => Word.clampSub collected fee }

def undoAll (p : Pool) (es : List Entry) : Pool := es.foldl undo p

/-- Closes the journal `id` of the account without undoing anything. -/
def close (p : Pool) (id : Nat) (account : Address) : Pool :=
  { p with journals := p.journals.erase id, opened := p.opened.erase account }

/-- Opens an empty journal of the account, under the next number. -/
def openJournal (p : Pool) (account : Address) : Pool :=
  let id := p.lastCheckpoint + 1
  { p with
    lastCheckpoint := id
    journals := p.journals.set id { account }
    opened := p.opened.set account id }

def checkpoint (account : Address) : PoolM Nat := do
  let p ← get
  if p.opened.contains account then Action.refuse (.checkpointOpen account)
  else
    set (p.openJournal account)
    return p.lastCheckpoint + 1

def revert (id : Nat) : PoolM Unit := do
  let p ← get
  match p.journals.get? id with
  | none => Action.refuse (.unknownCheckpoint id)
  | some j => set ((p.close id j.account).undoAll j.entries)

def commit (id : Nat) : PoolM Unit := do
  let p ← get
  match p.journals.get? id with
  | none => Action.refuse (.unknownCheckpoint id)
  | some j => set (p.close id j.account)

end Gearing.Pool
