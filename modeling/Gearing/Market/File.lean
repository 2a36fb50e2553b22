import Gearing.Market.Listing
import Gearing.Toml.Record

/-!
Markets from TOML texts.
-/
namespace Gearing
open Toml

def Listing.decoder : Decoder Listing := fun v => do
  let r ← Record.ofValue
    ["symbol", "address", "decimals", "ltv_bps", "liquidation_threshold_bps",
      "liquidation_bonus_bps", "reserve_factor_bps", "borrowing_enabled", "active", "price"] v
  return {
    symbol := ← r.required .string "symbol"
    address := ← r.required .string "address"
    decimals := ← r.required (.natural 8) "decimals"
    ltvBps := ← r.required (.natural 16) "ltv_bps"
    liquidationThresholdBps := ← r.required (.natural 16) "liquidation_threshold_bps"
    liquidationBonusBps := ← r.required (.natural 16) "liquidation_bonus_bps"
    reserveFactorBps := ← r.optional (.natural 16) "reserve_factor_bps" 0
    borrowingEnabled := ← r.optional .boolean "borrowing_enabled" true
    active := ← r.optional .boolean "active" true
    price := ← r.optional .float "price" (Binary64.ofNat 1) }

namespace Market

def decoder : Decoder Market := fun v => do
  let r ← Record.ofValue ["market", "wrapped_native", "reserves"] v
  return {
    name := ← r.required .string "market"
    wrappedNative := ← r.required .string "wrapped_native"
    listings := ← r.required (.array Listing.decoder) "reserves" }

/-- The market that a text spells out, not validated yet; nothing if it spells out none. -/
def ofToml? (text : String) : Option Market := (Toml.parse text).bind decoder

end Market
end Gearing
