/-!
The Mode market: seven reserves, one of them listed for supply alone.
-/
namespace Gearing.Market

/-- The market as a TOML text, the way it is kept in a configuration directory. -/
def modeText : String :=
  String.intercalate "\n" [
    "# Mode market reserves",
    "market = \"mode\"",
    "wrapped_native = \"0x4200000000000000000000000000000000000006\"",
    "",
    "[[reserves]]",
    "symbol = \"USDC\"",
    "address = \"0xb12bfca5a55806aaf64e99521918a4bf0fc40802\"",
    "decimals = 6",
    "ltv_bps = 8000",
    "liquidation_threshold_bps = 8500",
    "liquidation_bonus_bps = 11500",
    "reserve_factor_bps = 6500",
    "price = 1.0",
    "",
    "[[reserves]]",
    "symbol = \"USDT\"",
    "address = \"0x4988a896b1227218e4a686fde5eabdcabd91571f\"",
    "decimals = 6",
    "ltv_bps = 8000",
    "liquidation_threshold_bps = 8500",
    "liquidation_bonus_bps = 11500",
    "reserve_factor_bps = 6500",
    "price = 1.0",
    "",
    "[[reserves]]",
    "symbol = \"WETH\"",
    "address = \"0x4200000000000000000000000000000000000006\"",
    "decimals = 18",
    "ltv_bps = 7000",
    "liquidation_threshold_bps = 7500",
    "liquidation_bonus_bps = 11500",
    "reserve_factor_bps = 6500",
    "price = 3000.0",
    "",
    "[[reserves]]",
    "symbol = \"STONE\"",
    "address = \"0x80137510979822322193fc997d400d5a6c747bf7\"",
    "decimals = 18",
    "ltv_bps = 3000",
    "liquidation_threshold_bps = 3500",
    "liquidation_bonus_bps = 11500",
    "reserve_factor_bps = 6500",
    "price = 3000.0",
    "",
    "[[reserves]]",
    "symbol = \"ezETH\"",
    "address = \"0x2416092f143378750bb29b79ed961ab195cceea5\"",
    "decimals = 18",
    "ltv_bps = 3000",
    "liquidation_threshold_bps = 3500",
    "liquidation_bonus_bps = 11500",
    "reserve_factor_bps = 6500",
    "price = 3000.0",
    "",
    "# Listed for supply only: no collateral value, not borrowable",
    "[[reserves]]",
    "symbol = \"mBTC\"",
    "address = \"0x59889b7021243db5b1e065385f918316cd90d46c\"",
    "decimals = 18",
    "ltv_bps = 0",
    "liquidation_threshold_bps = 0",
    "liquidation_bonus_bps = 0",
    "reserve_factor_bps = 6500",
    "borrowing_enabled = false",
    "price = 60000.0",
    "",
    "[[reserves]]",
    "symbol = \"MODE\"",
    "address = \"0xdfc7c877a950e49d2610114102175a06c2e3167a\"",
    "decimals = 18",
    "ltv_bps = 5000",
    "liquidation_threshold_bps = 5500",
    "liquidation_bonus_bps = 11500",
    "reserve_factor_bps = 6500",
    "price = 0.02",
    ""]

end Gearing.Market
