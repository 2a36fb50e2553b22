import Gearing.Engine.Settings
import Gearing.Toml.Record

/-!
Settings of the engine from a TOML text. Every field has a default.
-/
namespace Gearing.Settings
open Toml

def boundsDecoder : Decoder Bounds := fun v => do
  let r ← Record.ofValue ["max_loop_count", "epsilon", "max_iterations"] v
  return {
    maxLoopCount := ← r.optional (.natural 32) "max_loop_count" 40
    epsilon := ← r.optional (.natural 64) "epsilon" 100
    maxIterations := ← r.optional (.natural 32) "max_iterations" 100 }

def feeDecoder : Decoder Nat := fun v => do
  let r ← Record.ofValue ["fee_bps"] v
  r.optional (.natural 16) "fee_bps" 9

def floorDecoder : Decoder Binary64 := fun v => do
  let r ← Record.ofValue ["min_health_factor"] v
  r.optional .float "min_health_factor" (Binary64.ofNat 1)

def decoder : Decoder Settings := fun v => do
  let r ← Record.ofValue ["profile", "solver", "flash", "guard"] v
  return {
    profile := ← r.optional .string "profile" "default"
    bounds := ← r.optional boundsDecoder "solver" {}
    feeBps := ← r.optional feeDecoder "flash" 9
    minHealthFactor := ← r.optional floorDecoder "guard" (Binary64.ofNat 1) }

/-- The settings that a text spells out, not validated yet; nothing if it spells out none. -/
def ofToml? (text : String) : Option Settings := (Toml.parse text).bind decoder

end Gearing.Settings
