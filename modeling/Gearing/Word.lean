import Gearing.Power

/-!
256-bit words: the amounts, prices and indices of a lending pool.

`+`, `-` and `*` wrap modulo `2 ^ 256`. The operations of this module are the ones that refuse
(`add?`, `mul?`, `sub?`), clamp (`clampSub`) or stop the program (`quotient`) instead.
-/
namespace Gearing

abbrev Word := BitVec 256

/-- Arithmetic that has no answer. Nothing recovers from it: the program stops there. -/
inductive Trap where
  | zeroDivision
  | overflow
  deriving DecidableEq, Repr

def Trap.message : Trap → String
  | .zeroDivision => "division by zero"
  | .overflow => "arithmetic overflow"

namespace Word

def greatest : Word := BitVec.allOnes 256

def add? (a b : Word) : Option Word :=
  if a.toNat + b.toNat < 2 ^ 256 then some (a + b) else none

def mul? (a b : Word) : Option Word :=
  if a.toNat * b.toNat < 2 ^ 256 then some (a * b) else none

def sub? (a b : Word) : Option Word :=
  if b ≤ a then some (a - b) else none

/-- The difference, or zero where it would be negative. -/
def clampSub (a b : Word) : Word :=
  if b ≤ a then a - b else 0

/-- Truncating division; a zero divisor traps. -/
def quotient (a b : Word) : Except Trap Word :=
  if b = 0 then .error .zeroDivision else .ok (a / b)

def sum (ws : List Word) : Word := ws.foldl (· + ·) 0

def decimal (a : Word) : String := toString a.toNat

theorem toNat_add? {a b c : Word} (h : add? a b = some c) : c.toNat = a.toNat + b.toNat := by
  unfold add? at h
  split at h
  · cases h
    rw [BitVec.toNat_add, Nat.mod_eq_of_lt (by assumption)]
  · cases h

theorem toNat_mul? {a b c : Word} (h : mul? a b = some c) : c.toNat = a.toNat * b.toNat := by
  unfold mul? at h
  split at h
  · cases h
    rw [BitVec.toNat_mul, Nat.mod_eq_of_lt (by assumption)]
  · cases h

theorem toNat_clampSub (a b : Word) : (clampSub a b).toNat = a.toNat - b.toNat := by
  unfold clampSub
  split
  · rename_i h
    exact BitVec.toNat_sub_of_le h
  · rename_i h
    have hlt : a.toNat < b.toNat := by
      simpa [BitVec.le_def] using h
    simp
    omega

end Word
end Gearing
