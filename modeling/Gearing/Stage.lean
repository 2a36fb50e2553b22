import Gearing.Word

/-!
Stages of a run: idle, then flash liquidity, then the rounds one after the other, then repayment and
settlement. Every stage that is not final may be aborted.
-/
namespace Gearing

inductive Stage where
  | idle
  | flashAcquired
  | looping (round : UInt32)
  | repaying
  | settled
  | aborted
  deriving DecidableEq, Repr

namespace Stage

def isTerminal : Stage → Bool
  | settled | aborted => true
  | _ => false

/-- Whether the second stage may follow the first. Only the question whether one round follows
another one computes, and past the last 32-bit round it traps. -/
def leadsTo : Stage → Stage → Except Trap Bool
  | s, aborted => .ok (!s.isTerminal)
  | idle, flashAcquired => .ok true
  | flashAcquired, looping i => .ok (i == 1)
  | flashAcquired, repaying => .ok true
  | looping i, looping j =>
    if i.toNat + 1 < 2 ^ 32 then .ok (j == i + 1) else .error .overflow
  | looping _, repaying => .ok true
  | repaying, settled => .ok true
  | _, _ => .ok false

def name : Stage → String
  | idle => "Idle"
  | flashAcquired => "FlashAcquired"
  | looping i => "Looping(" ++ toString i.toNat ++ ")"
  | repaying => "Repaying"
  | settled => "Settled"
  | aborted => "Aborted"

end Stage
end Gearing
