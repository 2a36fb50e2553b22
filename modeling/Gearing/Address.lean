import Gearing.Keccak
import Gearing.Text.Quoted

/-!
Account and token addresses: 160 bits, written as 40 hexadecimal digits.

`Address.parse` takes any case and an optional `0x`; a text that it refuses has one of three faults,
looked for in the order of `Address.Fault`. `text` is the lower-case form. `checksum` is the mixed-case
form: a letter is a capital where the Keccak hash of the lower-case digits has a digit above 7.
-/
namespace Gearing

structure Address where
  bits : BitVec 160
  deriving DecidableEq, Repr, Inhabited

namespace Address

def zero : Address := ⟨0⟩

/-- The address whose twenty bytes are all `b`. -/
def repeated (b : UInt8) : Address :=
  ⟨BitVec.ofNat 160 ((List.replicate 20 b.toNat).foldl (fun n b => n * 256 + b) 0)⟩

/-- Why a text is no address. -/
inductive Fault where
  | oddLength
  | wrongLength
  | badDigit (byte : UInt8) (index : Nat)
  deriving DecidableEq, Repr

def hexValue? (b : UInt8) : Option Nat :=
  let n := b.toNat
  if 48 ≤ n ∧ n ≤ 57 then some (n - 48)
  else if 97 ≤ n ∧ n ≤ 102 then some (n - 87)
  else if 65 ≤ n ∧ n ≤ 70 then some (n - 55)
  else none

def hexDigit (n : Nat) : Char :=
  if n < 10 then Char.ofNat (48 + n) else Char.ofNat (87 + n)

/-- Hexadecimal value of bytes; the first one that is no digit is named with its place. -/
def readHex (value index : Nat) : List UInt8 → Except Fault Nat
  | [] => .ok value
  | b :: bs =>
    match hexValue? b with
    | some d => readHex (value * 16 + d) (index + 1) bs
    | none => .error (.badDigit b index)

def dropMark : List UInt8 → List UInt8
  | 48 :: 120 :: bs => bs
  | bs => bs

def parse (s : String) : Except Fault Address :=
  let bytes := dropMark s.toUTF8.toList
  if bytes.length % 2 = 1 then .error .oddLength
  else if bytes.length ≠ 40 then .error .wrongLength
  else (readHex 0 0 bytes).map fun n => ⟨BitVec.ofNat 160 n⟩

/-- The lowest `k` hexadecimal digits, the highest of them first. -/
def digits (n : Nat) : Nat → List Nat
  | 0 => []
  | k + 1 => digits (n / 16) k ++ [n % 16]

def nibbles (a : Address) : List Nat := digits a.bits.toNat 40

def text (a : Address) : String :=
  "0x" ++ String.ofList (a.nibbles.map hexDigit)

def checksum (a : Address) : String :=
  let plain := a.nibbles.map hexDigit
  let hash := Keccak.hash (plain.map fun c => c.val.toUInt8)
  let marks := hash.flatMap fun b => [b.toNat / 16, b.toNat % 16]
  "0x" ++ String.ofList (plain.zipWith (fun c m => if 8 ≤ m then c.toUpper else c) marks)

/-- The wording of a fault; a byte is shown as one of the first 256 characters. -/
def Fault.message : Fault → String
  | .oddLength => "odd number of digits"
  | .wrongLength => "invalid string length"
  | .badDigit b i => "invalid character " ++ Text.quoteChar (Char.ofNat b.toNat) ++ " at position " ++ toString i

end Address
end Gearing
