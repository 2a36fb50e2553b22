import Gearing.Toml.Text

/-!
Numbers, dates and times of a TOML document.

Integers have 64 bits with a sign. A decimal that overflows upwards is refused, one that overflows
downwards is negative infinity. Digits may be grouped by single underscores between them.
-/
namespace Gearing.Toml

def isDigit (c : Char) : Bool := '0' ≤ c && c ≤ '9'

def digitsValue (cs : List Char) : Nat := cs.foldl (fun n c => 10 * n + (c.toNat - 48)) 0

/-- The digits after a first one, without the underscores between them. -/
def moreDigits (isDigit : Char → Bool) : Reader (List Char)
  | [] => some ([], [])
  | '_' :: c :: cs =>
    if isDigit c then (moreDigits isDigit cs).map fun (ds, rest) => (c :: ds, rest) else none
  | c :: cs =>
    if isDigit c then (moreDigits isDigit cs).map fun (ds, rest) => (c :: ds, rest)
    else if c = '_' then none
    else some ([], c :: cs)

def digitRun (isDigit : Char → Bool) : Reader (List Char)
  | [] => none
  | c :: cs =>
    if isDigit c then (moreDigits isDigit cs).map fun (ds, rest) => (c :: ds, rest) else none

/-- A decimal integer without its sign; a zero stands alone. -/
def decimalDigits : Reader (List Char)
  | '0' :: cs => some (['0'], cs)
  | cs => digitRun isDigit cs

def sign : List Char → Bool × List Char
  | '-' :: cs => (true, cs)
  | '+' :: cs => (false, cs)
  | cs => (false, cs)

def integer? (i : Int) : Option Value :=
  if -2 ^ 63 ≤ i ∧ i < 2 ^ 63 then some (.integer i) else none

def fraction : Reader (List Char)
  | '.' :: cs => digitRun isDigit cs
  | cs => some ([], cs)

/-- The part from the exponent mark on: its value. -/
def exponent : Reader Int
  | [] => some (0, [])
  | c :: cs =>
    if c = 'e' ∨ c = 'E' then
      let (negative, cs) := sign cs
      (digitRun isDigit cs).map fun (ds, rest) =>
        (if negative then -(digitsValue ds : Int) else digitsValue ds, rest)
    else some (0, c :: cs)

def float? (negative : Bool) (whole part : List Char) (e : Int) : Option Value :=
  let x := Binary64.ofDecimal negative (digitsValue (whole ++ part)) (e - part.length)
  if x = Binary64.infinity false then none else some (.float x)

def decimal (negative : Bool) (cs : List Char) : Option (Value × List Char) := do
  let (whole, rest) ← decimalDigits cs
  let (part, tail) ← fraction rest
  let (e, tail) ← exponent tail
  if tail.length = rest.length then
    let n : Int := digitsValue whole
    return (← integer? (if negative then -n else n), tail)
  else return (← float? negative whole part e, tail)

/-- An unsigned integer in the base of its mark. -/
def based (base : Nat) (isDigit : Char → Bool) (cs : List Char) : Option (Value × List Char) := do
  let (ds, rest) ← digitRun isDigit cs
  let n := ds.foldl (fun n c => base * n + (hexDigit? c).getD 0) 0
  return (← integer? n, rest)

def negated (negative : Bool) (x : Binary64) : Binary64 :=
  if negative then ⟨x.bits ||| 0x8000000000000000⟩ else x

def number : Reader Value
  | '0' :: 'x' :: cs => based 16 (fun c => (hexDigit? c).isSome) cs
  | '0' :: 'o' :: cs => based 8 (fun c => '0' ≤ c && c ≤ '7') cs
  | '0' :: 'b' :: cs => based 2 (fun c => c = '0' || c = '1') cs
  | cs =>
    match sign cs with
    | (negative, 'i' :: 'n' :: 'f' :: rest) => some (.float (Binary64.infinity negative), rest)
    | (negative, 'n' :: 'a' :: 'n' :: rest) => some (.float (negated negative Binary64.nan), rest)
    | (negative, rest) => decimal negative rest

/-! ### Dates and times -/

/-- A number of exactly `n` digits between two bounds. -/
def field (n lo hi : Nat) (cs : List Char) : Option (Nat × List Char) :=
  let ds := cs.take n
  let v := digitsValue ds
  if ds.length = n ∧ ds.all isDigit ∧ lo ≤ v ∧ v ≤ hi then some (v, cs.drop n) else none

def mark (m : Char) : List Char → Option (List Char)
  | c :: cs => if c = m then some cs else none
  | [] => none

def isLeap (year : Nat) : Bool := year % 4 = 0 && (year % 100 ≠ 0 || year % 400 = 0)

def daysIn (year month : Nat) : Nat :=
  if month = 2 then if isLeap year then 29 else 28
  else if month = 4 ∨ month = 6 ∨ month = 9 ∨ month = 11 then 30
  else 31

def date (cs : List Char) : Option (List Char) := do
  let (year, cs) ← field 4 0 9999 cs
  let (month, cs) ← field 2 1 12 (← mark '-' cs)
  let (_, cs) ← field 2 1 (daysIn year month) (← mark '-' cs)
  return cs

def secondFraction : List Char → Option (List Char)
  | '.' :: cs =>
    match cs with
    | c :: _ => if isDigit c then some (cs.dropWhile isDigit) else none
    | [] => none
  | cs => some cs

def time (cs : List Char) : Option (List Char) := do
  let (_, cs) ← field 2 0 23 cs
  let (_, cs) ← field 2 0 59 (← mark ':' cs)
  let (_, cs) ← field 2 0 60 (← mark ':' cs)
  secondFraction cs

def offset : List Char → Option (List Char)
  | 'Z' :: cs => some cs
  | 'z' :: cs => some cs
  | c :: cs =>
    if c = '+' ∨ c = '-' then do
      let (_, cs) ← field 2 0 23 cs
      let (_, cs) ← field 2 0 59 (← mark ':' cs)
      return cs
    else some (c :: cs)
  | [] => some []

def startsTime : List Char → Bool
  | a :: b :: ':' :: _ => isDigit a && isDigit b
  | _ => false

def startsDate : List Char → Bool
  | a :: b :: c :: d :: '-' :: _ => isDigit a && isDigit b && isDigit c && isDigit d
  | _ => false

def dateTime (cs : List Char) : Option (List Char) := do
  let cs ← date cs
  match cs with
  | c :: rest =>
    if (c = 'T' || c = 't' || c = ' ') && startsTime rest then offset (← time rest)
    else return cs
  | [] => return []

/-- What starts with a digit or a sign. -/
def numberOrDate (cs : List Char) : Option (Value × List Char) :=
  if startsDate cs then (dateTime cs).map (.datetime, ·)
  else if startsTime cs then (time cs).map (.datetime, ·)
  else number cs

end Gearing.Toml
