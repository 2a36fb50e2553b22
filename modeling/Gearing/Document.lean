import Gearing.Json
import Gearing.Executor.Receipt

/-!
The JSON documents of plans, reserves, positions and receipts. Words are hexadecimal quantities
without leading zeros, addresses are in lower case, counts are numbers.
-/
namespace Gearing

def Word.quantity (w : Word) : String := "0x" ++ String.ofList (Nat.toDigits 16 w.toNat)

namespace Document

def word (w : Word) : Json := .string (Word.quantity w)

def address (a : Address) : Json := .string a.text

def plan (p : Plan) : Json :=
  .object [("loop_count", .number p.loopCount), ("borrow_ratio", .number p.borrowRatio)]

def schedule (s : Schedule) : Json :=
  .object [("tranches", .array (s.tranches.map word))]

def health (r : HealthReport) : Json :=
  .object [
    ("collateral_wad", word r.collateral),
    ("debt_wad", word r.debt),
    ("borrow_capacity_wad", word r.capacity),
    ("health_factor_wad", word r.healthFactor)]

def position (p : Position) : Json :=
  .object [
    ("account", address p.account),
    ("asset", address p.asset),
    ("deposited_total", word p.deposited),
    ("borrowed_total", word p.borrowed)]

def reserve (r : Reserve) : Json :=
  .object [
    ("asset", address r.asset),
    ("symbol", .string r.symbol),
    ("decimals", .number r.decimals),
    ("ltv_bps", .number r.ltvBps),
    ("liquidation_threshold_bps", .number r.liquidationThresholdBps),
    ("liquidation_bonus_bps", .number r.liquidationBonusBps),
    ("active", .bool r.active),
    ("borrowing_enabled", .bool r.borrowingEnabled),
    ("price", word r.price),
    ("liquidity_index", word r.liquidityIndex),
    ("variable_borrow_index", word r.borrowIndex),
    ("available_liquidity", word r.liquidity)]

def step : Step → Json
  | .flashAcquired amount fee =>
    .object [("step", .string "flash_acquired"), ("amount", word amount), ("fee", word fee)]
  | .deposit tranche amount =>
    .object [("step", .string "deposit"), ("tranche", .number tranche), ("amount", word amount)]
  | .borrow tranche amount =>
    .object [("step", .string "borrow"), ("tranche", .number tranche), ("amount", word amount)]
  | .healthChecked factor =>
    .object [("step", .string "health_checked"), ("health_factor_wad", word factor)]
  | .flashRepaid amount => .object [("step", .string "flash_repaid"), ("amount", word amount)]

def receipt (r : Receipt) : Json :=
  .object [
    ("account", address r.account),
    ("asset", address r.asset),
    ("plan", (r.plan.map plan).getD .null),
    ("schedule", schedule r.schedule),
    ("total_deposit", word r.schedule.totalDeposit),
    ("total_borrow", word r.schedule.totalBorrow),
    ("flash_fee", word r.flashFee),
    ("health", health r.health),
    ("position", position r.position),
    ("steps", .array (r.steps.map step))]

end Document
end Gearing
