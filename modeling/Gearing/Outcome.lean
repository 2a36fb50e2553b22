import Gearing.Word

/-!
How an operation ends. A refusal has a cause and may be handled by whoever asked; a trap ends the
program and is handled by nobody. `attempt` is the only way to look at a refusal, and it lets traps
pass.
-/
namespace Gearing

inductive Halt (ε : Type) where
  | refused (cause : ε)
  | trapped (trap : Trap)
  deriving DecidableEq, Repr

/-- A program over a state `σ`: what it did to the state stays, also when it ends in a halt. -/
abbrev Action (ε σ α : Type) := EStateM (Halt ε) σ α

namespace Action
variable {ε ε' σ τ α : Type}

def refuse (cause : ε) : Action ε σ α := throw (.refused cause)

def ofTrap : Except Trap α → Action ε σ α
  | .ok a => pure a
  | .error t => throw (.trapped t)

def ofExcept : Except (Halt ε) α → Action ε σ α
  | .ok a => pure a
  | .error e => throw e

/-- The refusal of a program as a value; the state is the one that the program left. -/
def attempt (act : Action ε σ α) : Action ε' σ (Except ε α) := fun s =>
  match act s with
  | .ok a s => .ok (.ok a) s
  | .error (.refused cause) s => .ok (.error cause) s
  | .error (.trapped t) s => .error (.trapped t) s

def relabel (f : ε → ε') (act : Action ε σ α) : Action ε' σ α := fun s =>
  match act s with
  | .ok a s => .ok a s
  | .error (.refused cause) s => .error (.refused (f cause)) s
  | .error (.trapped t) s => .error (.trapped t) s

/-- A program over a part of the state, run inside the whole. -/
def focus (view : τ → σ) (put : τ → σ → τ) (act : Action ε σ α) : Action ε τ α := fun t =>
  match act (view t) with
  | .ok a s => .ok a (put t s)
  | .error e s => .error e (put t s)

end Action
end Gearing
