import Gearing.Calldata
import Gearing.Command.Arguments
import Gearing.Command.Files
import Gearing.Document
import Gearing.Engine.File
import Gearing.Executor.Native
import Gearing.Market.File

/-!
The program: it plans a leveraged loop on a configured market, or simulates one on a pool that holds
a billion whole tokens of each active reserve.
-/
namespace Gearing.Command

/-- What the program finds around it. -/
structure Environment where
  profile : Option String := none
  market : Option String := none
  configDirectory : Option String := none
  files : Files

inductive Failure where
  | unreadableSettings (path : String)
  | malformedSettings (path : String)
  | noMarket
  | unknownReserve (symbol market : String)
  | notWrappedNative (symbol : String)
  | market (cause : MarketError)
  | engine (cause : EngineError)
  deriving DecidableEq, Repr

def Failure.message : Failure → String
  | unreadableSettings path => "Failed to read engine config " ++ Text.quote path
  | malformedSettings path => "Failed to parse engine config " ++ Text.quote path
  | noMarket => "Failed to load market (check CONFIG_DIR and MARKET)"
  | unknownReserve symbol name => "Unknown reserve '" ++ symbol ++ "' in market " ++ name
  | notWrappedNative symbol => symbol ++ " is not the wrapped native reserve"
  | market cause => cause.message
  | engine cause => cause.message

abbrev Outcome (α : Type) := Except (Halt Failure) α

def fail {α : Type} (f : Failure) : Outcome α := .error (.refused f)

def ofMarket {α : Type} : Except MarketError α → Outcome α
  | .ok a => .ok a
  | .error e => fail (.market e)

def ofEngine {α : Type} : Except EngineError α → Outcome α
  | .ok a => .ok a
  | .error e => fail (.engine e)

def loadSettings (env : Environment) : Option String → Outcome Settings
  | none => ofEngine (Settings.forProfile (env.profile.getD "default"))
  | some path =>
    match env.files path with
    | none => fail (.unreadableSettings path)
    | some text =>
      match Settings.ofToml? text with
      | none => fail (.malformedSettings path)
      | some s => ofEngine s.validate

/-- The file of the market; a name that is an absolute path stands for itself. -/
def marketPath (env : Environment) : String :=
  let name := env.market.getD "mode" ++ ".toml"
  if name.toList.head? = some '/' then name
  else env.configDirectory.getD "./config" ++ "/markets/" ++ name

def loadMarket (env : Environment) : Outcome Market :=
  match (env.files (marketPath env)).bind Market.ofToml? with
  | none => fail .noMarket
  | some m => if m.validate.toBool then .ok m else fail .noMarket

def findListing (m : Market) (symbol : String) : Outcome Listing :=
  match m.listing? symbol with
  | some l => .ok l
  | none => fail (.unknownReserve symbol m.name)

def hex (c : HelperCall) : Json := .string (Calldata.hex (Calldata.encode c))

/-- The value to attach to a run in the wrapped native reserve. -/
def attachedValue (s : Settings) (principal : Word) (plan : Plan) : Except EngineError Word := do
  let schedule ← Schedule.ofPlan principal plan
  return principal + schedule.flashFee s.feeBps

def plan (s : Settings) (m : Market) (symbol : String) (target : Nat) (amount : String)
    (helper : Address) : Outcome Json := do
  let l ← findListing m symbol
  let r ← ofMarket l.reserve
  let c ← ofEngine (Constraint.ofReserve r)
  let plan ← ofEngine (Solver.solve s.bounds target c.maxLtv)
  let principal ← ofMarket (l.parseAmount amount)
  let native := decide (r.asset = (← ofMarket m.wrappedNativeAddress))
  let value ← if native then some <$> ofEngine (attachedValue s principal plan) else pure none
  return .object [
    ("market", .string m.name),
    ("symbol", .string l.symbol),
    ("asset", Document.address r.asset),
    ("target", .number target),
    ("plan", Document.plan plan),
    ("leverage", .number plan.leverage),
    ("max_achievable", .number (Solver.maxAchievable s.bounds c.maxLtv)),
    ("principal", Document.word principal),
    ("native_value", (value.map Document.word).getD .null),
    ("calldata", .object [
      ("helper", Document.address helper),
      ("approve_delegation", hex (.approveDelegation helper Word.greatest)),
      ("loop", hex (.loop r.asset principal plan.borrowRatio plan.loopCount)),
      ("loop_native",
        if native then hex (.loopNative plan.borrowRatio plan.loopCount) else .null)])]

def account : Address := .repeated 0xa1

def operator : Address := .repeated 0x10

def deepLiquidity (r : Reserve) : Word := BitVec.ofNat 256 (10 ^ 9) * FixedPoint.pow10 r.decimals

/-- A pool of the active reserves of a market. -/
def simulatedPool (s : Settings) (m : Market) (wrapped : Address) : Outcome Pool := do
  let reserves ← m.active.mapM fun l => ofMarket l.reserve
  return reserves.foldl
    (fun p r => (p.list r).addLiquidity r.asset (deepLiquidity r))
    { feeBps := s.feeBps, wrappedNative := wrapped }

def runNative (x : Executor) (v : Venue) (principal : Word) (plan : Plan) : Executor.ExecM Receipt :=
  match Executor.quote v.feeBps principal plan with
  | .error cause => Action.refuse cause
  | .ok attached => x.runNative account plan attached

def simulate (s : Settings) (m : Market) (symbol amount : String) (target : Nat) (native : Bool) :
    Outcome Json := do
  let l ← findListing m symbol
  let principal ← ofMarket (l.parseAmount amount)
  let wrapped ← ofMarket m.wrappedNativeAddress
  let pool ← simulatedPool s m wrapped
  let r ← ofMarket l.reserve
  let pool := pool.setAllowance account operator r.asset Word.greatest
  let c ← ofEngine (Constraint.ofReserve r)
  let plan ← ofEngine (Solver.solve s.bounds target c.maxLtv)
  let x : Executor := { operator, bounds := s.bounds, guard := s.guard }
  let v : Venue := { pool }
  if native && r.asset ≠ wrapped then fail (.notWrappedNative l.symbol)
  else
    let run := if native then runNative x v principal plan else x.runPlan account r.asset principal plan
    match run v with
    | .ok receipt _ => return Document.receipt receipt
    | .error (.refused cause) _ => fail (.engine cause)
    | .error (.trapped t) _ => .error (.trapped t)

/-- Carries out an invocation; the answer is the document to print. -/
def carryOut (env : Environment) (i : Invocation) : Outcome Json := do
  let s ← loadSettings env i.engineConfig
  let m ← loadMarket env
  match i.request with
  | .plan symbol target principal helper => plan s m symbol target principal helper
  | .simulate symbol principal target native => simulate s m symbol principal target native

/-- How the program ends. -/
inductive Exit where
  | printed (document : Json)
  | failed (cause : Failure)
  | misused
  | trapped (trap : Trap)

def run (env : Environment) (args : List String) : Exit :=
  match invocation? args with
  | none => .misused
  | some i =>
    match carryOut env i with
    | .ok document => .printed document
    | .error (.refused cause) => .failed cause
    | .error (.trapped t) => .trapped t

/-- The first of the lines of a report. A line ends with a line feed, the last one too, and a carriage
return just before the line feed is part of the end. -/
def firstLine (report : String) : String :=
  let line := report.toList.takeWhile (· ≠ '\n')
  String.ofList (if line.getLast? = some '\r' then line.dropLast else line)

/-- The line that a failure is reported with. -/
def Failure.report (f : Failure) : String := firstLine ("Error: " ++ f.message)

end Gearing.Command
