/-!
The Keccak permutation on 25 lanes of 64 bits and the 256-bit hash with the padding byte
`0x01`. Each step of a round is a map over lane indices: lane `(x, y)` is at `x + 5 * y`.
-/
namespace Gearing.Keccak

abbrev Lanes := Vector UInt64 25

def rotateLeft (w : UInt64) (n : Nat) : UInt64 :=
  if n % 64 = 0 then w
  else w <<< UInt64.ofNat (n % 64) ||| w >>> UInt64.ofNat (64 - n % 64)

/-- Rotation of each lane, by its index. -/
def rotations : Vector Nat 25 :=
  #v[0, 1, 62, 28, 27, 36, 44, 6, 55, 20, 3, 10, 43, 25, 39, 41, 45, 15, 21, 8, 18, 2, 61, 56, 14]

def roundConstants : List UInt64 :=
  [0x0000000000000001, 0x0000000000008082, 0x800000000000808a, 0x8000000080008000,
   0x000000000000808b, 0x0000000080000001, 0x8000000080008081, 0x8000000000008009,
   0x000000000000008a, 0x0000000000000088, 0x0000000080008009, 0x000000008000000a,
   0x000000008000808b, 0x800000000000008b, 0x8000000000008089, 0x8000000000008003,
   0x8000000000008002, 0x8000000000000080, 0x000000000000800a, 0x800000008000000a,
   0x8000000080008081, 0x8000000000008080, 0x0000000080000001, 0x8000000080008008]

def lane (s : Lanes) (x y : Nat) : UInt64 :=
  s[x % 5 + 5 * (y % 5)]

/-- Every lane takes in the parities of two neighbouring columns. -/
def theta (s : Lanes) : Lanes :=
  let parity : Vector UInt64 5 := Vector.ofFn fun x =>
    lane s x 0 ^^^ lane s x 1 ^^^ lane s x 2 ^^^ lane s x 3 ^^^ lane s x 4
  let column (x : Nat) : UInt64 := parity[x % 5]
  Vector.ofFn fun i => s[i] ^^^ column (i + 4) ^^^ rotateLeft (column (i + 1)) 1

def rho (s : Lanes) : Lanes :=
  Vector.ofFn fun i => rotateLeft s[i] rotations[i]

/-- Lane `(x, y)` comes from lane `(x + 3 * y, x)`. -/
def pi (s : Lanes) : Lanes :=
  Vector.ofFn fun i => lane s (i % 5 + 3 * (i / 5)) (i % 5)

def chi (s : Lanes) : Lanes :=
  Vector.ofFn fun i => s[i] ^^^ (~~~ lane s (i % 5 + 1) (i / 5) &&& lane s (i % 5 + 2) (i / 5))

def iota (c : UInt64) (s : Lanes) : Lanes :=
  Vector.ofFn fun i => if i.val = 0 then s[i] ^^^ c else s[i]

def permute (s : Lanes) : Lanes :=
  roundConstants.foldl (fun s c => iota c (chi (pi (rho (theta s))))) s

/-- The value of bytes, the first one lowest. -/
def word : List UInt8 → UInt64
  | [] => 0
  | b :: bs => b.toUInt64 ||| word bs <<< 8

def rate : Nat := 136

def absorb (s : Lanes) (block : List UInt8) : Lanes :=
  permute (Vector.ofFn fun i => s[i] ^^^ word ((block.drop (8 * i)).take 8))

/-- The message, a one bit, zeros, and a one bit that ends a block. -/
def pad (message : List UInt8) : List UInt8 :=
  let room := rate - message.length % rate
  if room = 1 then message ++ [0x81]
  else message ++ 0x01 :: List.replicate (room - 2) 0 ++ [0x80]

def absorbAll : Nat → Lanes → List UInt8 → Lanes
  | 0, s, _ => s
  | n + 1, s, bytes => absorbAll n (absorb s (bytes.take rate)) (bytes.drop rate)

def laneBytes (w : UInt64) : List UInt8 :=
  (List.range 8).map fun k => (w >>> UInt64.ofNat (8 * k)).toUInt8

def hash (message : List UInt8) : List UInt8 :=
  let padded := pad message
  let s := absorbAll (padded.length / rate) (Vector.replicate 25 0) padded
  (s.toList.take 4).flatMap laneBytes

end Gearing.Keccak
