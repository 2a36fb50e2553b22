import Gearing.Pool.Operation

/-!
The pool as an executor reaches it.

Every call of the executor is counted by name, and what it changes in the pool is noted down. A call
may be scripted to fail: then it is refused with a given cause and does not reach the pool. The rate
that the venue quotes for flash liquidity may differ from the one that the pool charges, and flash
liquidity may come from another provider altogether.
-/
namespace Gearing

inductive Call where
  | reserve
  | position
  | accountSnapshot
  | borrowAllowance
  | deposit
  | borrow
  | checkpoint
  | revertTo
  | commit
  | acquire
  | repay
  | wrap
  | unwrap
  deriving DecidableEq, Repr

/-- The `nth` call of one name fails, counted from one. -/
structure Fault where
  call : Call
  nth : Nat := 1
  cause : PoolError
  deriving DecidableEq, Repr

structure Venue where
  pool : Pool
  faults : List Fault := []
  quotedFeeBps : Option Nat := none
  /-- Whether native coin can be wrapped here. -/
  gateway : Bool := true
  /-- Calls so far, newest first. -/
  calls : List Call := []
  /-- Operations carried out on the pool so far, newest first. -/
  done : List Pool.Op := []
  deriving DecidableEq

abbrev VenueM (α : Type) := Action PoolError Venue α

namespace Venue

def fault? (v : Venue) (c : Call) : Option PoolError :=
  (v.faults.find? fun f => f.call = c ∧ f.nth = v.calls.count c).map (·.cause)

/-- Runs an operation of the pool, with its effect on the pool alone. -/
def reach {α : Type} (act : PoolM α) : VenueM α :=
  Action.focus pool (fun v p => { v with pool := p }) act

/-- Counts a call, then lets it fail or reach the pool. -/
def call {α : Type} (c : Call) (act : PoolM α) : VenueM α := do
  modify fun v => { v with calls := c :: v.calls }
  match (← get).fault? c with
  | some cause => Action.refuse cause
  | none => reach act

/-- A call that changes the pool: once it is carried out, it is noted down. -/
def perform {α : Type} (c : Call) (op : Pool.Op) (act : PoolM α) : VenueM α := do
  let a ← call c act
  modify fun v => { v with done := op :: v.done }
  return a

def feeBps (v : Venue) : Nat := v.quotedFeeBps.getD v.pool.feeBps

def flashFee (v : Venue) (amount : Word) : Word := FixedPoint.applyBps amount v.feeBps

def reserve (asset : Address) : VenueM Reserve := call .reserve (Pool.reserve asset)

def position (account asset : Address) : VenueM Position :=
  call .position (Pool.position account asset)

def snapshot (account : Address) : VenueM Snapshot :=
  call .accountSnapshot (return (← get).snapshot account)

def borrowAllowance (account delegatee asset : Address) : VenueM Word :=
  call .borrowAllowance (Pool.borrowAllowance account delegatee asset)

def deposit (asset : Address) (amount : Word) (account : Address) : VenueM Unit :=
  perform .deposit (.deposit asset amount account) (Pool.deposit asset amount account)

def borrow (asset : Address) (amount : Word) (delegatee account : Address) : VenueM Unit :=
  perform .borrow (.borrow asset amount delegatee account)
    (Pool.borrow asset amount delegatee account)

def checkpoint (account : Address) : VenueM Nat :=
  perform .checkpoint (.checkpoint account) (Pool.checkpoint account)

def revert (id : Nat) : VenueM Unit := perform .revertTo (.revert id) (Pool.revert id)

def commit (id : Nat) : VenueM Unit := perform .commit (.commit id) (Pool.commit id)

def acquire (asset : Address) (amount : Word) (account : Address) : VenueM Ticket :=
  perform .acquire (.acquire asset amount account) (Pool.acquire asset amount account)

def repay (ticket : Nat) (paid : Word) : VenueM Unit :=
  perform .repay (.repay ticket paid) (Pool.repay ticket paid)

def wrap (amount : Word) : VenueM Unit := perform .wrap (.wrap amount) (Pool.wrap amount)

def unwrap (amount : Word) : VenueM Unit := perform .unwrap (.unwrap amount) (Pool.unwrap amount)

end Venue

/-- Where flash liquidity comes from: the fee that is quoted for an amount, how the amount is handed
out, and how it is taken back. -/
structure Provider where
  fee : Word → Word
  acquire : Address → Word → Address → VenueM Ticket
  repay : Ticket → Word → VenueM Unit

/-- The provider of a run, in the venue as it stands. -/
abbrev Flash := Venue → Provider

namespace Flash

/-- The pool that the run is on, with the fee that its venue quotes. -/
def own : Flash := fun v =>
  { fee := v.flashFee
    acquire := Venue.acquire
    repay := fun t => Venue.repay t.id }

end Flash

/-- The same provider, however the venue stands. -/
def Provider.flash (P : Provider) : Flash := fun _ => P

end Gearing
