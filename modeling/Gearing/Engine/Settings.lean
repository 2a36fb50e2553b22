import Gearing.Guard

/-!
Settings of the engine: bounds of the solver, the flash fee and the floor of the guard.

Settings reach the solver and the executor only through `Settings.validate`, which names the first
of five faults. A profile is a named set of settings.
-/
namespace Gearing

structure Settings where
  profile : String := "default"
  bounds : Bounds := {}
  feeBps : Nat := 9
  minHealthFactor : Binary64 := Binary64.ofNat 1
  deriving DecidableEq, Repr

namespace Settings

def guard (s : Settings) : Guard := Guard.ofFloat s.minHealthFactor

def validate (s : Settings) : Except EngineError Settings :=
  if s.bounds.maxLoopCount < 1 then .error (.invalid .noLoops)
  else if s.bounds.epsilon = 0 then .error (.invalid .noEpsilon)
  else if s.bounds.maxIterations < 1 then .error (.invalid .noIterations)
  else if scale ≤ s.feeBps then .error (.invalid (.feeTooHigh s.feeBps))
  else if s.minHealthFactor.isNaN || s.minHealthFactor.atMostZero then
    .error (.invalid .noHealthFloor)
  else .ok s

/-- Fewer loops, and a health factor of at least 1.05. -/
def conservative : Settings where
  profile := "conservative"
  bounds := { maxLoopCount := 10, epsilon := 50 }
  minHealthFactor := Binary64.ofDecimal false 105 (-2)

/-- Deep loops with a wider window around the target. -/
def aggressive : Settings where
  profile := "aggressive"
  bounds := { maxLoopCount := 60, epsilon := 200, maxIterations := 200 }

/-- The settings of a profile. Names are compared in ASCII lower case, which decides for every name
below because none of them has a letter that another alphabet lowers to. -/
def ofName (name : String) : Settings :=
  match name.toLower with
  | "conservative" | "safe" => conservative
  | "aggressive" | "aggro" => aggressive
  | _ => {}

def forProfile (name : String) : Except EngineError Settings := (ofName name).validate

/-- One change of the settings. -/
inductive Change where
  | profile (name : String)
  | maxLoopCount (n : Nat)
  | epsilon (n : Nat)
  | maxIterations (n : Nat)
  | feeBps (n : Nat)
  | minHealthFactor (x : Binary64)
  deriving DecidableEq, Repr

def change (s : Settings) : Change → Settings
  | .profile name => { s with profile := name }
  | .maxLoopCount n => { s with bounds.maxLoopCount := n }
  | .epsilon n => { s with bounds.epsilon := n }
  | .maxIterations n => { s with bounds.maxIterations := n }
  | .feeBps n => { s with feeBps := n }
  | .minHealthFactor x => { s with minHealthFactor := x }

def build (cs : List Change) : Except EngineError Settings :=
  (cs.foldl change {}).validate

end Settings
end Gearing
