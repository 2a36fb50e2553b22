import Gearing.Address
import Gearing.Leverage
import Gearing.Word

/-!
Calls of the on-chain looping helper as calldata: four selector bytes, then one word of 32 bytes for
each argument, the highest byte first.
-/
namespace Gearing

/-- The calls that a helper takes, and the approval that its caller grants first. -/
inductive HelperCall where
  | loop (asset : Address) (amount : Word) (borrowRatio loopCount : Nat)
  | loopNative (borrowRatio loopCount : Nat)
  | approveDelegation (delegatee : Address) (amount : Word)
  deriving DecidableEq, Repr

namespace Calldata

def bytes (n : Nat) : Nat → List UInt8
  | 0 => []
  | k + 1 => bytes (n / 256) k ++ [UInt8.ofNat n]

def wordBytes (w : Word) : List UInt8 := bytes w.toNat 32

/-- The first four bytes of the hash of a signature: `loop(address,uint256,uint256,uint256)`,
`loopETH(uint256,uint256)` and `approveDelegation(address,uint256)`. -/
def selector : HelperCall → List UInt8
  | .loop .. => [0xb2, 0x14, 0x66, 0xd0]
  | .loopNative .. => [0x21, 0xc2, 0xd3, 0x8c]
  | .approveDelegation .. => [0xc0, 0x4a, 0x8a, 0x10]

def arguments : HelperCall → List Word
  | .loop asset amount ratio loops =>
    [asset.bits.setWidth 256, amount, BitVec.ofNat 256 ratio, BitVec.ofNat 256 loops]
  | .loopNative ratio loops => [BitVec.ofNat 256 ratio, BitVec.ofNat 256 loops]
  | .approveDelegation delegatee amount => [delegatee.bits.setWidth 256, amount]

def encode (c : HelperCall) : List UInt8 :=
  selector c ++ (arguments c).flatMap wordBytes

def hex (bs : List UInt8) : String :=
  "0x" ++ String.ofList (bs.flatMap fun b =>
    [Address.hexDigit (b.toNat / 16), Address.hexDigit (b.toNat % 16)])

end Calldata
end Gearing
