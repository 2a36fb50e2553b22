import Gearing.Word

/-!
Token amounts in whole tokens, such as `1.5`, read as base units.

The text is cut at its first point. The fraction may have as many bytes as the token has decimals;
it is filled up with zeros and read together with the whole part as one number. In a number, `_` is
skipped and nothing at all is zero.
-/
namespace Gearing.Amount

inductive Fault where
  | tooPrecise
  | malformed
  deriving DecidableEq, Repr

def digit? (c : Char) : Option Nat :=
  if '0' ≤ c ∧ c ≤ '9' then some (c.toNat - '0'.toNat) else none

/-- `n` followed by the digits of a text. -/
def number? (n : Nat) : List Char → Option Nat
  | [] => some n
  | c :: cs =>
    if c = '_' then number? n cs
    else (digit? c).bind fun d => number? (10 * n + d) cs

def word? (cs : List Char) : Option Word :=
  (number? 0 cs).bind fun n => if n < 2 ^ 256 then some (BitVec.ofNat 256 n) else none

/-- The text before the first point and the text after it. -/
def cut (cs : List Char) : List Char × List Char :=
  (cs.takeWhile (· ≠ '.'), (cs.dropWhile (· ≠ '.')).drop 1)

def byteLength (cs : List Char) : Nat := cs.foldr (fun c n => c.utf8Size + n) 0

/-- A fraction, filled up to `decimals` characters. -/
def fill (decimals : Nat) (cs : List Char) : List Char :=
  cs ++ List.replicate (decimals - cs.length) '0'

def parse (decimals : Nat) (cs : List Char) : Except Fault Word :=
  let (whole, fraction) := cut cs
  if decimals < byteLength fraction then .error .tooPrecise
  else
    match word? (whole ++ fill decimals fraction) with
    | some w => .ok w
    | none => .error .malformed

end Gearing.Amount
