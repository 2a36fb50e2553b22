import Gearing.Executor.Venue
import Gearing.Guard
import Gearing.Schedule

/-!
One run of a schedule, from the flash liquidity to its repayment.

The whole borrow is acquired up front, the tranches are supplied and borrowed in turn, the guard
judges the account, and the flash liquidity is repaid from the cash in hand, which has to come out
at zero. A run keeps its stages (`trail`) and a journal of its steps.
-/
namespace Gearing

structure Executor where
  /-- Who the executor borrows as. -/
  operator : Address
  bounds : Bounds := {}
  guard : Guard := {}
  deriving DecidableEq, Repr

inductive Step where
  | flashAcquired (amount fee : Word)
  | deposit (tranche : Nat) (amount : Word)
  | borrow (tranche : Nat) (amount : Word)
  | healthChecked (healthFactor : Word)
  | flashRepaid (amount : Word)
  deriving DecidableEq, Repr

structure Run where
  venue : Venue
  /-- Cash in hand. -/
  cash : Word := 0
  stage : Stage := .idle
  /-- Stages left behind, newest first. -/
  passed : List Stage := []
  /-- Newest first. -/
  steps : List Step := []
  deriving DecidableEq

abbrev RunM (α : Type) := Action EngineError Run α

namespace Run

def invalid {σ α : Type} (cause : Invalid) : Action EngineError σ α :=
  Action.refuse (.invalid cause)

/-- A call on the venue, its refusal in the words of the engine. -/
def onVenue {α : Type} (act : VenueM α) : RunM α :=
  Action.focus venue (fun r v => { r with venue := v }) (act.relabel EngineError.ofPool)

def enter (r : Run) (next : Stage) : Run :=
  { r with stage := next, passed := r.stage :: r.passed }

/-- The stages of a run in order, the present one last. -/
def trail (r : Run) : List Stage := (r.stage :: r.passed).reverse

theorem trail_enter (r : Run) (next : Stage) : (r.enter next).trail = r.trail ++ [next] := by
  simp [trail, enter]

def advance (next : Stage) : RunM Unit := do
  let r ← get
  if ← Action.ofTrap (r.stage.leadsTo next) then set (r.enter next)
  else invalid (.illegalStage r.stage next)

def note (s : Step) : RunM Unit :=
  modify fun r => { r with steps := s :: r.steps }

def receive (amount : Word) : RunM Unit :=
  modify fun r => { r with cash := r.cash + amount }

def spend (amount : Word) : RunM Unit := do
  let r ← get
  match Word.sub? r.cash amount with
  | some cash => set { r with cash }
  | none => Action.refuse (.settlement amount r.cash)

end Run

namespace Executor
variable (x : Executor) (account asset : Address)

def supplyTranche (tranche : Nat) (amount : Word) : RunM Unit := do
  Run.onVenue (Venue.deposit asset amount account)
  Run.spend amount
  Run.note (.deposit tranche amount)

def borrowTranche (tranche : Nat) (amount : Word) : RunM Unit := do
  Run.onVenue (Venue.borrow asset amount x.operator account)
  Run.receive amount
  Run.note (.borrow tranche amount)

/-- The rounds from round `i + 1` on, with `each` in hand: supply it, borrow the next tranche. The
answer is the last tranche, which is not supplied yet. -/
def rounds : Nat → Word → List Word → RunM Word
  | _, each, [] => return each
  | i, each, next :: rest => do
    Run.advance (.looping (UInt32.ofNat (i + 1)))
    supplyTranche account asset i each
    borrowTranche x account asset (i + 1) next
    rounds (i + 1) next rest

def judge (borrowed : Bool) : RunM HealthReport := do
  let snapshot ← Run.onVenue (Venue.snapshot account)
  let health ← Action.ofExcept (x.guard.check borrowed snapshot)
  Run.note (.healthChecked health.healthFactor)
  return health

end Executor

namespace Flash
open Executor
variable (flash : Flash) (x : Executor) (account asset : Address)

/-- The caller brings the principal and the quoted fee; the rest is flash liquidity. -/
def fund (s : Schedule) : RunM Ticket := do
  let provider := flash (← get).venue
  modify fun r => { r with cash := s.principal + provider.fee s.totalBorrow }
  let ticket ← Run.onVenue (provider.acquire asset s.totalBorrow account)
  Run.receive ticket.amount
  Run.advance .flashAcquired
  Run.note (.flashAcquired ticket.amount ticket.fee)
  return ticket

/-- Repays the flash liquidity from the cash in hand, to the last unit. -/
def settle (ticket : Ticket) : RunM Unit := do
  let owed := ticket.owed
  Run.spend owed
  let r ← get
  if r.cash ≠ 0 then Action.refuse (.settlement owed r.cash)
  else
    Run.onVenue ((flash r.venue).repay ticket owed)
    Run.note (.flashRepaid owed)

def execute (s : Schedule) : RunM HealthReport := do
  let ticket ← flash.fund account asset s
  let last ← rounds x account asset 0 s.principal s.borrows
  Run.advance .repaying
  supplyTranche account asset s.loopCount last
  let health ← judge x account (s.totalBorrow != 0)
  flash.settle ticket
  return health

end Flash
end Gearing
