import Gearing.Main
import Gearing.Market.Mode
import Gearing.Session
import Gearing.Proofs.Leverage
import Gearing.Proofs.Solver
import Gearing.Proofs.Ends
import Gearing.Proofs.Executor.Atomic
import Gearing.Proofs.Executor.Committed
import Gearing.Proofs.Executor.Settled
import Gearing.Proofs.Schedule
import Gearing.Proofs.Series
import Gearing.Proofs.Executor.Healthy
import Gearing.Proofs.Guard
import Gearing.Proofs.Executor.Feasible
import Gearing.Proofs.Executor.Progress
import Gearing.Proofs.Executor.Solved
import Gearing.Proofs.Pool.Tally
import Gearing.Proofs.Pool.Ceiling
import Gearing.Proofs.Pool.Restored
import Gearing.Proofs.Pool.Beside
import Gearing.Proofs.Pool.Totals
import Gearing.Proofs.Executor.Modulo
import Gearing.Proofs.Pool.Straddled
import Gearing.Proofs.Executor.Books
import Gearing.Proofs.Session
import Gearing.Proofs.Matches
import Gearing.Proofs.Pool.Richer
import Gearing.Proofs.Executor.Abreast
import Gearing.Proofs.Executor.InStep
import Gearing.Proofs.Executor.Alongside
import Gearing.Proofs.Executor.Undisturbed
import Gearing.Proofs.Executor.Quote
import Gearing.Proofs.Alike
import Gearing.Proofs.Worth
import Gearing.Proofs.Verdict
import Gearing.Proofs.Pool.Wrapped
import Gearing.Proofs.Executor.Wrapped
import Gearing.Proofs.Executor.Native
import Gearing.Proofs.Executor.Boundary
import Gearing.Proofs.Solver.Nearest
import Gearing.Proofs.Solver.Reach
import Gearing.Proofs.Solver.Relaxed
import Gearing.Proofs.Depth
import Gearing.Proofs.Guard.Decision
import Gearing.Proofs.Guard.Order
import Gearing.Proofs.Pool.Improved
import Gearing.Proofs.Executor.Blame
import Gearing.Proofs.Executor.Unborrowed
import Gearing.Proofs.Guard.Solvency
import Gearing.Proofs.Executor.Phases
import Gearing.Proofs.Executor.Walk
import Gearing.Proofs.Executor.Settlement
import Gearing.Proofs.Executor.Unstopped
import Gearing.Proofs.Amount
import Gearing.Proofs.Pool.Portfolio
import Gearing.Proofs.Pool.Refused
import Gearing.Proofs.Executor.Rounding
import Gearing.Proofs.Stage
import Gearing.Proofs.Amount.Render
import Gearing.Proofs.Market
import Gearing.Proofs.Planned
import Gearing.Proofs.Calldata
import Gearing.Proofs.Pool.Register
