import Gearing.Power

/-!
Binary floating point with 64 bits, as the bits themselves.

A finite datum is a whole number of units of `2 ^ -1074`, so every operation is exact arithmetic on
naturals followed by one rounding (`nearest`) to 53 significant bits, ties to even. The results of
operations on special data follow the same standard; the one NaN that operations produce is
`Binary64.nan`.
-/
namespace Gearing

structure Binary64 where
  bits : UInt64
  deriving DecidableEq, Repr

namespace Binary64

/-- What the bits stand for; a finite magnitude counts units of `2 ^ -1074`. -/
inductive Datum where
  | finite (negative : Bool) (units : Nat)
  | infinite (negative : Bool)
  | nan
  deriving DecidableEq, Repr

/-- One is this many units. -/
def one : Nat := 2 ^ 1074

/-- The first magnitude past the finite ones. -/
def ceiling : Nat := 2 ^ 1024 * one

def datum (x : Binary64) : Datum :=
  let b := x.bits.toNat
  let negative := decide (2 ^ 63 ≤ b)
  let e := b / 2 ^ 52 % 2048
  let f := b % 2 ^ 52
  if e = 2047 then if f = 0 then .infinite negative else .nan
  else if e = 0 then .finite negative f
  else .finite negative ((2 ^ 52 + f) * 2 ^ (e - 1))

private def pack (negative : Bool) (magnitude : Nat) : Binary64 :=
  ⟨UInt64.ofNat ((if negative then 2 ^ 63 else 0) + magnitude)⟩

def infinity (negative : Bool) : Binary64 := pack negative (2047 * 2 ^ 52)

def nan : Binary64 := pack false (2047 * 2 ^ 52 + 2 ^ 51)

/-- A magnitude of at most 53 significant bits; from the ceiling on it is infinite. -/
def ofUnits (negative : Bool) (units : Nat) : Binary64 :=
  if ceiling ≤ units then infinity negative
  else if units < 2 ^ 52 then pack negative units
  else
    let q := units.log2 - 52
    pack negative ((q + 1) * 2 ^ 52 + (units / 2 ^ q - 2 ^ 52))

/-- The whole number nearest to `n / d`, of two the even one. -/
def roundQuotient (n d : Nat) : Nat :=
  let q := n / d
  let r := n % d
  if 2 * r < d then q
  else if d < 2 * r then q + 1
  else q + q % 2

/-- The magnitude of 53 significant bits nearest to `n / d` units. -/
def nearest (n d : Nat) : Nat :=
  let q := n / d
  if q < 2 ^ 53 then roundQuotient n d
  else
    let s := q.log2 - 52
    roundQuotient n (d * 2 ^ s) * 2 ^ s

/-- The datum nearest to `n / d`. -/
def ofQuotient (negative : Bool) (n d : Nat) : Binary64 :=
  ofUnits negative (nearest (n * one) d)

def ofNat (n : Nat) : Binary64 := ofQuotient false n 1

def ofInt (i : Int) : Binary64 := ofQuotient (decide (i < 0)) i.natAbs 1

/-- The datum nearest to `m * 10 ^ e`. Beyond 400 decimal places to either side of the point every
nonzero decimal is infinite or zero. -/
def ofDecimal (negative : Bool) (m : Nat) (e : Int) : Binary64 :=
  if m = 0 then pack negative 0
  else
    let top : Int := (toString m).length + e
    if 400 < top then infinity negative
    else if top < -400 then pack negative 0
    else if 0 ≤ e then ofQuotient negative (m * 10 ^ e.toNat) 1
    else ofQuotient negative m (10 ^ (-e).toNat)

def mul (x y : Binary64) : Binary64 :=
  match x.datum, y.datum with
  | .nan, _ => nan
  | _, .nan => nan
  | .infinite s, .infinite t => infinity (s != t)
  | .infinite s, .finite t n => if n = 0 then nan else infinity (s != t)
  | .finite s m, .infinite t => if m = 0 then nan else infinity (s != t)
  | .finite s m, .finite t n => ofUnits (s != t) (nearest (m * n) one)

def div (x y : Binary64) : Binary64 :=
  match x.datum, y.datum with
  | .nan, _ => nan
  | _, .nan => nan
  | .infinite _, .infinite _ => nan
  | .infinite s, .finite t _ => infinity (s != t)
  | .finite s _, .infinite t => pack (s != t) 0
  | .finite s m, .finite t n =>
    if n = 0 then if m = 0 then nan else infinity (s != t)
    else ofUnits (s != t) (nearest (m * one) n)

private def signed (negative : Bool) (units : Nat) : Int :=
  if negative then -(units : Int) else units

def add (x y : Binary64) : Binary64 :=
  match x.datum, y.datum with
  | .nan, _ => nan
  | _, .nan => nan
  | .infinite s, .infinite t => if s = t then infinity s else nan
  | .infinite s, .finite _ _ => infinity s
  | .finite _ _, .infinite t => infinity t
  | .finite s m, .finite t n =>
    let total := signed s m + signed t n
    if total = 0 then pack (s && t) 0 else ofUnits (decide (total < 0)) (nearest total.natAbs 1)

def isNaN (x : Binary64) : Bool := x.datum == .nan

/-- Comparison with zero; both zeros are at most zero and a NaN is not. -/
def atMostZero (x : Binary64) : Bool :=
  match x.datum with
  | .finite negative units => negative || units == 0
  | .infinite negative => negative
  | .nan => false

/-- The whole part, clamped to `0 .. bound`; a NaN counts as zero. -/
def truncate (bound : Nat) (x : Binary64) : Nat :=
  match x.datum with
  | .finite false units => min (units / one) bound
  | .infinite false => bound
  | _ => 0

/-- The nearest whole number, a half going up, clamped to `0 .. bound`. -/
def roundHalfUp (bound : Nat) (x : Binary64) : Nat :=
  match x.datum with
  | .finite false units => min ((2 * units + one) / (2 * one)) bound
  | .infinite false => bound
  | _ => 0

end Binary64
end Gearing
