import Gearing.Word
import Gearing.Binary64

/-!
Fixed-point valuation in wrapping words.

Values carry 18 decimals (`wad`), oracle prices 8, ratios 4 (`bps`) and pool indices 27 (`ray`).
-/
namespace Gearing.FixedPoint

def wad : Word := BitVec.ofNat 256 (10 ^ 18)

def ray : Word := BitVec.ofNat 256 (10 ^ 27)

def bps : Word := 10000

/-- A power of ten, wrapped to 256 bits. -/
def pow10 (e : Nat) : Word := BitVec.ofNat 256 (10 ^ e)

/-- Value of `amount` base units of a token with `decimals` decimals. The exponent of ten is
`18 - decimals - 8`; a negative one divides once, after the product. -/
def value (amount price : Word) (decimals : Nat) : Word :=
  if amount = 0 ∨ price = 0 then 0
  else if decimals ≤ 10 then amount * price * pow10 (10 - decimals)
  else amount * price / pow10 (decimals - 10)

def applyBps (amount : Word) (rate : Nat) : Word :=
  amount * BitVec.ofNat 256 rate / bps

/-- Health factor of a debt against collateral that is weighted in basis points. Without debt it is
the greatest word. -/
def healthFactor (weighted debt : Word) : Except Trap Word :=
  if debt = 0 then .ok Word.greatest
  else Word.quotient (weighted * wad) (debt * bps)

/-- Product with an index, half up. -/
def rayMul (a index : Word) : Word := (a * index + ray / 2) / ray

/-- Quotient by an index, half up. -/
def rayDiv (a index : Word) : Except Trap Word :=
  Word.quotient (a * ray + index / 2) index

def share (a index : Word) : Word := (a * ray + index / 2) / index

theorem rayDiv_eq (a index : Word) :
    rayDiv a index = if index = 0 then .error .zeroDivision else .ok (share a index) := rfl

/-- The greatest 128-bit number, the bound of conversions from floating point. -/
def clamp : Nat := 2 ^ 128 - 1

private def ten18 : Binary64 := Binary64.ofNat (10 ^ 18)

/-- A value with 18 decimals in floating point, for display. Past 128 bits only the two lowest limbs
count, each rounded on its own. -/
def toFloat (w : Word) : Binary64 :=
  let n := w.toNat
  if n ≤ clamp then (Binary64.ofNat n).div ten18
  else
    let high := (Binary64.ofNat (n / 2 ^ 64 % 2 ^ 64)).mul (.ofNat (2 ^ 64))
    (high.add (.ofNat (n % 2 ^ 64))).div ten18

/-- A floating-point number with 18 decimals; what is at most zero or no number becomes zero. -/
def ofFloat (x : Binary64) : Word :=
  if x.atMostZero then 0
  else BitVec.ofNat 256 ((x.mul ten18).truncate clamp)

/-- A price with 8 decimals, rounded to the nearest. -/
def priceOfFloat (x : Binary64) : Word :=
  if x.atMostZero then 0
  else BitVec.ofNat 256 ((x.mul (.ofNat (10 ^ 8))).roundHalfUp clamp)

end Gearing.FixedPoint
