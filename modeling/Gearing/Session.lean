import Gearing.Executor.Native

/-!
A pool and an executor that live through a list of steps.

Some steps go to the pool itself and some to the executor. A refused step leaves what it has done so
far and the session goes on; a trap ends it. After each step the session shows the parts of the pool
that concern the accounts it was opened with.
-/
namespace Gearing

/-- An executor with the venue it works on, the pool apart. -/
structure Desk where
  executor : Executor
  faults : List Fault := []
  quotedFeeBps : Option Nat := none
  gateway : Bool := true
  deriving DecidableEq, Repr

def Desk.venue (d : Desk) (p : Pool) : Venue where
  pool := p
  faults := d.faults
  quotedFeeBps := d.quotedFeeBps
  gateway := d.gateway

structure Session where
  venue : Venue
  executor : Executor
  accounts : List Address
  /-- In the order of their first listing. -/
  assets : List Address := []
  /-- Tickets that the session itself holds. -/
  tickets : List Nat := []
  deriving DecidableEq

namespace Session

inductive Move where
  | pool (op : Pool.Op)
  | allowance (account delegatee asset : Address)
  | reserve (asset : Address)
  | position (account asset : Address)
  | snapshot (account : Address)
  | flashFee (amount : Word)
  | check (account : Address) (borrowed : Bool)
  | seat (desk : Desk)
  | runPlan (account asset : Address) (principal : Word) (plan : Plan)
  | runSingle (account asset : Address) (principal borrow : Word)
  | runNative (account : Address) (plan : Plan) (attached : Word)
  | quote (principal : Word) (plan : Plan)
  | principalFor (plan : Plan) (attached : Word)
  deriving DecidableEq, Repr

inductive Reply where
  | pool (a : Pool.Answer)
  | word (w : Word)
  | reserve (r : Reserve)
  | position (p : Position)
  /-- A snapshot, and for each asset of the session whether the snapshot has it. -/
  | snapshot (s : Snapshot) (found : List Bool)
  | report (r : HealthReport)
  | operator (a : Address)
  | receipt (r : Receipt)
  deriving DecidableEq, Repr

inductive Refusal where
  | pool (cause : PoolError)
  | engine (cause : EngineError)
  | noTicket
  deriving DecidableEq, Repr

abbrev SessionM (α : Type) := Action Refusal Session α

def start (feeBps : Nat) (wrappedNative : Address) (accounts : List Address) (d : Desk) :
    Session where
  venue := d.venue { feeBps, wrappedNative }
  executor := d.executor
  accounts := accounts

/-- Another executor takes over, on the same pool and with a count of calls of its own. -/
def seat (s : Session) (d : Desk) : Session :=
  { s with venue := d.venue s.venue.pool, executor := d.executor }

def onVenue {α : Type} (act : Action EngineError Venue α) : SessionM α :=
  Action.focus venue (fun s v => { s with venue := v }) (act.relabel Refusal.engine)

def onPool {α : Type} (act : PoolM α) : SessionM α :=
  Action.focus (fun s => s.venue.pool) (fun s p => { s with venue := { s.venue with pool := p } })
    (act.relabel Refusal.pool)

def ofExcept {α : Type} : Except EngineError α → SessionM α
  | .ok a => return a
  | .error cause => Action.refuse (.engine cause)

/-- Takes a ticket out of the session's hands, for good. -/
def giveTicket (id : Nat) : SessionM Unit := do
  let s ← get
  if id ∈ s.tickets then set { s with tickets := s.tickets.erase id }
  else Action.refuse .noTicket

/-- What the session itself notes of an operation that the pool has carried out. -/
def noted (s : Session) (op : Pool.Op) (a : Pool.Answer) : Session :=
  match op, a with
  | .list r, _ => if r.asset ∈ s.assets then s else { s with assets := s.assets ++ [r.asset] }
  | _, .ticket t => { s with tickets := t.id :: s.tickets }
  | _, _ => s

def operate (op : Pool.Op) : SessionM Pool.Answer := do
  match op with
  | .repay id _ => giveTicket id
  | _ => pure ()
  let a ← onPool (Pool.apply op)
  modify (·.noted op a)
  return a

def play : Move → SessionM Reply
  | .pool op => return .pool (← operate op)
  | .allowance account delegatee asset =>
    return .word (← onPool (Pool.borrowAllowance account delegatee asset))
  | .reserve asset => return .reserve (← onPool (Pool.reserve asset))
  | .position account asset => return .position (← onPool (Pool.position account asset))
  | .snapshot account => do
    let s ← get
    let view := s.venue.pool.snapshot account
    return .snapshot view (s.assets.map fun a => (view.holding? a).isSome)
  | .flashFee amount => return .word ((← get).venue.pool.flashFee amount)
  | .check account borrowed => do
    let s ← get
    match s.executor.guard.check borrowed (s.venue.pool.snapshot account) with
    | .ok report => return .report report
    | .error (.refused cause) => Action.refuse (.engine cause)
    | .error (.trapped t) => Action.ofTrap (.error t)
  | .seat d => do
    modify (·.seat d)
    return .operator d.executor.operator
  | .runPlan account asset principal plan => do
    let x := (← get).executor
    return .receipt (← onVenue (x.runPlan account asset principal plan))
  | .runSingle account asset principal borrow => do
    let x := (← get).executor
    return .receipt (← onVenue (x.runSingle account asset principal borrow))
  | .runNative account plan attached => do
    let x := (← get).executor
    return .receipt (← onVenue (x.runNative account plan attached))
  | .quote principal plan => do
    let rate := (← get).venue.feeBps
    return .word (← ofExcept (Executor.quote rate principal plan))
  | .principalFor plan attached => do
    let rate := (← get).venue.feeBps
    return .word (← ofExcept (Executor.principalFor rate plan attached))

/-- What the session shows of its pool. Accounts and assets go by their numbers. -/
structure View where
  liquidity : List Word
  fees : List Word
  /-- Account, asset, deposited, borrowed; without the rows of two zeros. -/
  positions : List (Nat × Nat × Word × Word)
  /-- Account, delegatee, asset, amount; without the zeros. -/
  allowances : List (Nat × Nat × Nat × Word)
  /-- Accounts with an open checkpoint. -/
  opened : List Nat
  flash : Nat
  wrapped : Word
  deriving DecidableEq, Repr

def numbered (as : List Address) : List (Nat × Address) := (List.range as.length).zip as

def view (s : Session) : View :=
  let p := s.venue.pool
  let accounts := numbered s.accounts
  let assets := numbered s.assets
  { liquidity := s.assets.map fun a => ((p.reserve? a).map (·.liquidity)).getD 0
    fees := s.assets.map p.feesCollected
    positions := assets.flatMap fun (i, a) =>
      match p.reserve? a with
      | none => []
      | some r => accounts.filterMap fun (k, account) =>
        let (deposited, borrowed) := p.totals account r
        if deposited = 0 ∧ borrowed = 0 then none else some (k, i, deposited, borrowed)
    allowances := assets.flatMap fun (i, a) => accounts.flatMap fun (k, account) =>
      accounts.filterMap fun (l, delegatee) =>
        let amount := p.allowance account delegatee a
        if amount = 0 then none else some (k, l, i, amount)
    opened := accounts.filterMap fun (k, account) =>
      if p.opened.contains account then some k else none
    flash := p.loans.size
    wrapped := p.wrapped }

inductive Frame where
  | shown (answer : Except Refusal Reply) (view : View)
  | halted (trap : Trap)

/-- Plays moves one after the other, up to a trap. -/
def replay (s : Session) : List Move → List Frame
  | [] => []
  | m :: ms =>
    match play m s with
    | .ok r s => .shown (.ok r) s.view :: s.replay ms
    | .error (.refused cause) s => .shown (.error cause) s.view :: s.replay ms
    | .error (.trapped t) _ => [.halted t]

end Session
end Gearing
