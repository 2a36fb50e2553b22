import Gearing.Executor.Run

/-!
Runs that leave all or nothing.

The preconditions are looked at before anything changes. Then a checkpoint of the account is opened,
the schedule is executed and the checkpoint is committed; a refusal on the way reverts it. A revert
that is refused itself is reported together with its cause.
-/
namespace Gearing

/-- The outcome of a settled run. The totals deposited and borrowed are those of its schedule, and the
time of the settlement is left out. -/
structure Receipt where
  account : Address
  asset : Address
  /-- Absent for a run with an explicit borrow. -/
  plan : Option Plan
  schedule : Schedule
  flashFee : Word
  health : HealthReport
  /-- Read back after the commit. -/
  position : Position
  steps : List Step
  deriving DecidableEq, Repr

namespace Executor
variable (x : Executor) (account asset : Address)

abbrev ExecM (α : Type) := Action EngineError Venue α

def onVenue {α : Type} (act : VenueM α) : ExecM α := act.relabel EngineError.ofPool

def checkDelegation (required : Word) : ExecM Unit := do
  if account = x.operator then return ()
  else
    let available ← onVenue (Venue.borrowAllowance account x.operator asset)
    if available < required then
      Action.refuse (.insufficientDelegation asset required available)

def checkPreconditions (s : Schedule) : ExecM Unit := do
  let r ← onVenue (Venue.reserve asset)
  if !r.isBorrowable then Action.refuse (.inactiveReserve asset r.active r.borrowingEnabled)
  else if s.principal = 0 then Run.invalid .noPrincipal
  else if x.bounds.maxLoopCount < s.loopCount then
    Run.invalid (.tooManyLoops s.loopCount x.bounds.maxLoopCount)
  else checkDelegation x account asset s.totalBorrow

def opening (s : Schedule) : ExecM Nat := do
  checkPreconditions x account asset s
  onVenue (Venue.checkpoint account)

/-- How a run ended: the health it was accepted with, or what it was refused for. -/
structure Ending where
  outcome : Except EngineError HealthReport
  run : Run

/-- A run inside the venue, up to its repayment or its first refusal. -/
def carryOut (act : RunM HealthReport) : ExecM Ending := fun v =>
  match (Action.attempt act : RunM _) { venue := v } with
  | .ok outcome run => .ok ⟨outcome, run⟩ run.venue
  | .error e run => .error e run.venue

/-- Reverts the checkpoint of a run because of `cause`. The run is over, also when the revert is
refused. -/
def abort (id : Nat) (run : Run) (cause : EngineError) : ExecM Ending := do
  let run := run.enter .aborted
  match ← Action.attempt (Venue.revert id) with
  | .ok () => return ⟨.error cause, run⟩
  | .error rollback => return ⟨.error (.rollbackFailed cause rollback), run⟩

/-- Commits the checkpoint of a run that its guard has accepted. -/
def conclude (id : Nat) (run : Run) (health : HealthReport) : ExecM Ending := do
  match ← Action.attempt (onVenue (Venue.commit id)) with
  | .error cause => abort id run cause
  | .ok () =>
    if ← Action.ofTrap (run.stage.leadsTo .settled) then return ⟨.ok health, run.enter .settled⟩
    else return ⟨.error (.invalid (.illegalStage run.stage .settled)), run⟩

/-- What becomes of a run once it has been carried out. -/
def afterwards (id : Nat) : Ending → ExecM Ending
  | ⟨.error cause, run⟩ => abort id run cause
  | ⟨.ok health, run⟩ => conclude id run health

/-- A run under an open checkpoint, which is closed one way or the other. -/
def underCheckpoint (id : Nat) (act : RunM HealthReport) : ExecM Ending := do
  let ending ← carryOut act
  afterwards id ending

end Executor

namespace Flash
open Executor
variable (flash : Flash) (x : Executor) (account asset : Address)

/-- The last part of a run: its receipt, or what it was refused for. -/
def report (s : Schedule) (plan : Option Plan) : Ending → ExecM Receipt
  | ⟨.error cause, _⟩ => Action.refuse cause
  | ⟨.ok health, run⟩ => do
    let position ← onVenue (Venue.position account asset)
    return {
      account
      asset
      plan
      schedule := s
      flashFee := (flash (← get)).fee s.totalBorrow
      health
      position
      steps := run.steps.reverse }

def runSchedule (s : Schedule) (plan : Option Plan) : ExecM Receipt := do
  let id ← opening x account asset s
  let ending ← underCheckpoint id (flash.execute x account asset s)
  flash.report account asset s plan ending

end Flash

namespace Executor
variable (x : Executor) (account asset : Address)

/-- The run of a schedule, with flash liquidity from the pool itself. -/
def runSchedule (s : Schedule) (plan : Option Plan) : ExecM Receipt :=
  Flash.own.runSchedule x account asset s plan

/-- Loops a principal by a plan. The caller brings the principal and the flash fee. -/
def runPlan (principal : Word) (plan : Plan) : ExecM Receipt := do
  if scale < plan.borrowRatio then Run.invalid (.ratioTooHigh plan.borrowRatio)
  else if x.bounds.maxLoopCount < plan.loopCount then
    Run.invalid (.tooManyLoops plan.loopCount x.bounds.maxLoopCount)
  else
    match Schedule.ofPlan principal plan with
    | .error cause => Action.refuse cause
    | .ok s => runSchedule x account asset s (some plan)

def runSingle (principal borrow : Word) : ExecM Receipt :=
  runSchedule x account asset (Schedule.single principal borrow) none

end Executor
end Gearing
