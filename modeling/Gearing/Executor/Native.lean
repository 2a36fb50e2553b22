import Gearing.Executor.Receipt

/-!
Runs that are paid in native coin.

The attached value has to be a principal plus the flash fee on what is borrowed, exactly. `quote` is
that sum; `principalFor` finds the principal of a value by bisection, or names the nearest value
that has one.
-/
namespace Gearing.Executor

/-- The value that a run of `principal` attaches, at a fee rate in basis points. -/
def quote (feeBps : Nat) (principal : Word) (plan : Plan) : Except EngineError Word := do
  let s ← Schedule.ofPlan principal plan
  match Word.add? principal (s.flashFee feeBps) with
  | some v => return v
  | none => throw (.invalid .attachedOverflow)

def fits (feeBps : Nat) (plan : Plan) (attached principal : Word) : Bool :=
  match quote feeBps principal plan with
  | .ok v => v ≤ attached
  | .error _ => false

def middle (lo hi : Word) : Word := lo + (hi - lo) / 2 + 1

theorem toNat_middle {lo hi : Word} (h : lo < hi) :
    (middle lo hi).toNat = lo.toNat + (hi.toNat - lo.toNat) / 2 + 1 := by
  have hlt : lo.toNat < hi.toNat := h
  have hsub : (hi - lo).toNat = hi.toNat - lo.toNat :=
    BitVec.toNat_sub_of_le (BitVec.le_def.mpr (Nat.le_of_lt hlt))
  have hhi := hi.isLt
  have htwo : (2 : Word).toNat = 2 := rfl
  have hone : (1 : Word).toNat = 1 := rfl
  simp only [middle, BitVec.toNat_add, BitVec.toNat_udiv, hsub, htwo, hone]
  omega

theorem toNat_middle_pred {lo hi : Word} (h : lo < hi) :
    (middle lo hi - 1).toNat = lo.toNat + (hi.toNat - lo.toNat) / 2 := by
  have hm := toNat_middle h
  have hone : (1 : Word).toNat = 1 := rfl
  rw [BitVec.toNat_sub_of_le (BitVec.le_def.mpr (by omega)), hm, hone]
  omega

/-- Bisection for the greatest principal that fits, knowing that `lo` does and what is past `hi` does
not. -/
def greatestFit (feeBps : Nat) (plan : Plan) (attached lo hi : Word) : Word :=
  if h : lo < hi then
    let mid := middle lo hi
    if fits feeBps plan attached mid then greatestFit feeBps plan attached mid hi
    else greatestFit feeBps plan attached lo (mid - 1)
  else lo
termination_by hi.toNat - lo.toNat
decreasing_by
  · have hm := toNat_middle h
    have hlt : lo.toNat < hi.toNat := h
    omega
  · have hm := toNat_middle_pred h
    have hlt : lo.toNat < hi.toNat := h
    omega

/-- Of the quotes below and above, the one nearer to the attached value, the lower one on a tie. -/
def nearestQuote (attached below : Word) : Option Word → Word
  | some above => if above - attached < attached - below then above else below
  | none => below

def principalFor (feeBps : Nat) (plan : Plan) (attached : Word) : Except EngineError Word := do
  let p := greatestFit feeBps plan attached 0 attached
  let below ← quote feeBps p plan
  if below = attached then return p
  else
    let above := (Word.add? p 1).bind fun q => (quote feeBps q plan).toOption
    throw (.invalid (.unmatchedValue attached (nearestQuote attached below above)))

/-- Loops the principal of an attached value in the wrapped reserve. A run that is refused gives the
value back. -/
def runNative (x : Executor) (account : Address) (plan : Plan) (attached : Word) :
    ExecM Receipt := do
  let v ← get
  if !v.gateway then Run.invalid .noGateway
  else
    match principalFor v.feeBps plan attached with
    | .error cause => Action.refuse cause
    | .ok principal =>
      onVenue (Venue.wrap attached)
      match ← Action.attempt (x.runPlan account v.pool.wrappedNative principal plan) with
      | .ok receipt => return receipt
      | .error cause =>
        match ← Action.attempt (Venue.unwrap attached) with
        | .ok () => Action.refuse cause
        | .error rollback => Action.refuse (.rollbackFailed cause rollback)

end Gearing.Executor
