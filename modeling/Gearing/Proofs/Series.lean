import Gearing.Proofs.Schedule
import Gearing.Proofs.Solver
import Mathlib.Algebra.Group.Nat.Even
import Mathlib.Tactic.Linarith
import Mathlib.Tactic.Ring

/-!
The leverage that a schedule realizes against the one that its plan was accepted for.

Both sum the same geometric series and truncate every term of it, the model in units of `1 / scale` and
the schedule in base units of its token. So the schedule never falls below the model, and it can exceed
the model by what the coarser truncation takes from the series, at most. That is nothing for two loops,
and it grows with the loops until it is wider than the window of the solver.
-/
namespace Gearing
open Leverage Schedule

namespace Leverage
variable {ratio : Nat}

/-- The terms of the series after the first one, over a common denominator of `scale ^ loops`. -/
def powers (ratio : Nat) : Nat → Nat
  | 0 => 0
  | loops + 1 => ratio * (scale ^ loops + powers ratio loops)

/-- The leverage of `loops` rounds whose terms are not truncated, rounded down once. -/
def series (loops ratio : Nat) : Nat :=
  scale * (scale ^ loops + powers ratio loops) / scale ^ loops

theorem grow_eq {loops each total : Nat} (hratio : ratio ≤ scale) (heach : each ≤ scale)
    (hlimit : total + (amounts ratio loops each).sum ≤ limit) :
    grow ratio loops each total = total + (amounts ratio loops each).sum := by
  induction loops generalizing each total with
  | zero => rfl
  | succ loops ih =>
    have hproduct : each * ratio ≤ scale * scale := Nat.mul_le_mul heach hratio
    have hsquare : scale * scale ≤ limit := by decide
    have hnext : nextTranche ratio each = each * ratio / scale := by
      rw [nextTranche, Nat.min_eq_left (hproduct.trans hsquare)]
    have hscale : each * ratio / scale ≤ scale := Nat.div_le_of_le_mul hproduct
    simp only [amounts, List.sum_cons] at hlimit ⊢
    simp only [grow, hnext]
    by_cases hzero : each * ratio / scale = 0
    · rw [if_pos hzero, hzero, sum_amounts_zero, Nat.add_zero]
    · have hsum : min (total + each * ratio / scale) limit = total + each * ratio / scale :=
        Nat.min_eq_left (by omega)
      rw [if_neg hzero, hsum, ih hscale (by omega), Nat.add_assoc]

theorem leverage_eq (hratio : ratio < scale) (loops : Nat) :
    leverage loops ratio = scale + (amounts ratio loops scale).sum := by
  have hsum := sum_amounts_le hratio loops scale
  have hproduct : ratio * scale ≤ scale * scale := Nat.mul_le_mul_right _ hratio.le
  have hlimit : scale + scale * scale ≤ limit := by decide
  exact grow_eq hratio.le le_rfl (by omega)

/-- No number of loops passes the leverage that the untruncated series tends to. -/
theorem leverage_le_asymptote {bound : Nat} (h : asymptote ratio = some bound) (loops : Nat) :
    leverage loops ratio ≤ bound := by
  unfold asymptote at h
  split_ifs at h with hratio
  cases h
  have hlt : ratio < scale := Nat.lt_of_not_le hratio
  have hpos : 0 < scale - ratio := by omega
  have hsum := scale_mul_sum_amounts ratio loops scale
  rw [leverage_eq hlt, Nat.le_div_iff_mul_le hpos]
  generalize (amounts ratio loops scale).sum = total at *
  have hsplit : (scale + total) * scale =
      (scale + total) * (scale - ratio) + ratio * (scale + total) := by
    rw [Nat.mul_comm ratio, ← Nat.mul_add, Nat.sub_add_cancel hlt.le]
  rw [Nat.add_mul, Nat.mul_comm total] at hsplit
  omega

theorem powers_le (hratio : ratio ≤ scale) (loops : Nat) :
    powers ratio loops ≤ loops * scale ^ loops := by
  induction loops with
  | zero => simp [powers]
  | succ loops ih =>
    calc powers ratio (loops + 1) = ratio * (scale ^ loops + powers ratio loops) := rfl
      _ ≤ scale * (scale ^ loops + loops * scale ^ loops) :=
        Nat.mul_le_mul hratio (Nat.add_le_add_left ih _)
      _ = (loops + 1) * scale ^ (loops + 1) := by ring

end Leverage

section Amounts
variable {ratio : Nat}

theorem mul_sum_amounts_le {k each each' : Nat} (loops : Nat) (h : k * each ≤ each') :
    k * (amounts ratio loops each).sum ≤ (amounts ratio loops each').sum := by
  induction loops generalizing each each' with
  | zero => simp [amounts]
  | succ loops ih =>
    have hnext : k * (each * ratio / scale) ≤ each' * ratio / scale := by
      calc k * (each * ratio / scale) ≤ k * (each * ratio) / scale := Nat.mul_div_le_mul_div_assoc ..
        _ ≤ each' * ratio / scale := by
          rw [← Nat.mul_assoc]
          exact Nat.div_le_div_right (Nat.mul_le_mul_right ratio h)
    simp only [amounts, List.sum_cons, Nat.mul_add]
    exact Nat.add_le_add hnext (ih hnext)

theorem pow_mul_sum_amounts_le (ratio loops each : Nat) :
    scale ^ loops * (amounts ratio loops each).sum ≤ each * powers ratio loops := by
  induction loops generalizing each with
  | zero => simp [amounts, powers]
  | succ loops ih =>
    have hnext : scale * (each * ratio / scale) ≤ each * ratio := Nat.mul_div_le _ _
    have hrest := ih (each * ratio / scale)
    simp only [amounts, powers, List.sum_cons]
    generalize each * ratio / scale = next at *
    calc scale ^ (loops + 1) * (next + (amounts ratio loops next).sum)
        = scale * (scale ^ loops * next + scale ^ loops * (amounts ratio loops next).sum) := by ring
      _ ≤ scale * (scale ^ loops * next + next * powers ratio loops) :=
        Nat.mul_le_mul_left _ (Nat.add_le_add_left hrest _)
      _ = scale * next * (scale ^ loops + powers ratio loops) := by ring
      _ ≤ each * ratio * (scale ^ loops + powers ratio loops) := Nat.mul_le_mul_right _ hnext
      _ = each * (ratio * (scale ^ loops + powers ratio loops)) := Nat.mul_assoc ..

theorem pow_mul_sum_amounts {loops each : Nat} (h : scale ^ loops ∣ each) :
    scale ^ loops * (amounts ratio loops each).sum = each * powers ratio loops := by
  induction loops generalizing each with
  | zero => simp [amounts, powers]
  | succ loops ih =>
    obtain ⟨k, rfl⟩ := h
    have hnext : scale ^ (loops + 1) * k * ratio / scale = scale ^ loops * (k * ratio) := by
      have hproduct : scale ^ (loops + 1) * k * ratio = scale * (scale ^ loops * (k * ratio)) := by
        ring
      rw [hproduct, Nat.mul_div_cancel_left _ (by decide)]
    have hrest := ih (Nat.dvd_mul_right (scale ^ loops) (k * ratio))
    simp only [amounts, powers, List.sum_cons, hnext]
    calc scale ^ (loops + 1) *
          (scale ^ loops * (k * ratio) + (amounts ratio loops (scale ^ loops * (k * ratio))).sum)
        = scale * (scale ^ loops * (scale ^ loops * (k * ratio)) +
            scale ^ loops * (amounts ratio loops (scale ^ loops * (k * ratio))).sum) := by ring
      _ = scale * (scale ^ loops * (scale ^ loops * (k * ratio)) +
            scale ^ loops * (k * ratio) * powers ratio loops) := by rw [hrest]
      _ = scale ^ (loops + 1) * k * (ratio * (scale ^ loops + powers ratio loops)) := by ring

/-- Each truncation takes less than one, and each term passes on what was taken before it. -/
theorem mul_powers_le (hratio : ratio ≤ scale) (loops each : Nat) :
    2 * (each * powers ratio loops) + loops ≤
      scale ^ loops * (2 * (amounts ratio loops each).sum + loops * (loops + 1)) := by
  induction loops generalizing each with
  | zero => simp [powers]
  | succ loops ih =>
    have hnext : each * ratio + 1 ≤ scale * (each * ratio / scale + 1) :=
      Nat.lt_mul_div_succ (each * ratio) (by decide)
    have hrest := ih (each * ratio / scale)
    have hpowers := powers_le hratio loops
    have hone : 1 ≤ scale ^ loops := Nat.one_le_pow loops scale (by decide)
    simp only [amounts, powers, List.sum_cons, Nat.pow_succ]
    generalize each * ratio / scale = next at *
    generalize scale ^ loops = unit at *
    generalize powers ratio loops = rest at *
    generalize (amounts ratio loops next).sum = total at *
    have hstep : (each * ratio + 1) * (unit + rest) ≤ scale * (next + 1) * (unit + rest) :=
      Nat.mul_le_mul_right _ hnext
    have hcarried : scale * (2 * (next * rest) + loops) ≤
        scale * (unit * (2 * total + loops * (loops + 1))) := Nat.mul_le_mul_left _ hrest
    have hrounds : scale * rest ≤ scale * (loops * unit) := Nat.mul_le_mul_left _ hpowers
    have hscale : loops ≤ scale * loops := Nat.le_mul_of_pos_left loops (by decide)
    calc 2 * (each * (ratio * (unit + rest))) + (loops + 1)
        ≤ 2 * ((each * ratio + 1) * (unit + rest)) + scale * loops := by linarith
      _ ≤ 2 * (scale * (next + 1) * (unit + rest)) + scale * loops := by linarith
      _ = 2 * (scale * unit * (next + 1)) + 2 * (scale * rest) +
            scale * (2 * (next * rest) + loops) := by ring
      _ ≤ 2 * (scale * unit * (next + 1)) + 2 * (scale * (loops * unit)) +
            scale * (unit * (2 * total + loops * (loops + 1))) := by linarith
      _ = unit * scale * (2 * (next + total) + (loops + 1) * (loops + 1 + 1)) := by ring

end Amounts

section Drift
variable {ratio : Nat}

theorem leverage_le_series (hratio : ratio < scale) (loops : Nat) :
    leverage loops ratio ≤ series loops ratio := by
  have hpow : 0 < scale ^ loops := Nat.pow_pos (by decide)
  have hsum := pow_mul_sum_amounts_le ratio loops scale
  rw [series, Nat.le_div_iff_mul_le hpow, leverage_eq hratio]
  calc (scale + (amounts ratio loops scale).sum) * scale ^ loops
      = scale * scale ^ loops + scale ^ loops * (amounts ratio loops scale).sum := by ring
    _ ≤ scale * scale ^ loops + scale * powers ratio loops := Nat.add_le_add_left hsum _
    _ = scale * (scale ^ loops + powers ratio loops) := by ring

/-- The first tranche of `scale` is the ratio itself, so the errors start at the second one. -/
theorem series_succ (ratio loops : Nat) :
    series (loops + 1) ratio = scale + (ratio + ratio * powers ratio loops / scale ^ loops) := by
  have hpow : 0 < scale ^ loops := Nat.pow_pos (by decide)
  have hunit : 0 < scale ^ (loops + 1) := Nat.pow_pos (by decide)
  have hsplit : scale * (scale ^ (loops + 1) + powers ratio (loops + 1)) =
      scale * (ratio * powers ratio loops) + scale ^ (loops + 1) * (scale + ratio) := by
    simp only [powers]
    ring
  have hrest : scale * (ratio * powers ratio loops) / scale ^ (loops + 1) =
      ratio * powers ratio loops / scale ^ loops := by
    rw [Nat.pow_succ, Nat.mul_comm (scale ^ loops), Nat.mul_div_mul_left _ _ (by decide)]
  rw [series, hsplit, Nat.add_mul_div_left _ _ hunit, hrest]
  omega

/-- The model loses less than one unit for each pair of a truncated term and a term after it. -/
theorem series_le (hratio : ratio < scale) (loops : Nat) :
    series loops ratio ≤ leverage loops ratio + (loops * (loops - 1) / 2 - 1) := by
  rw [leverage_eq hratio]
  cases loops with
  | zero => simp [series, powers, amounts]
  | succ loops =>
    have hfirst : scale * ratio / scale = ratio := Nat.mul_div_cancel_left ratio (by decide)
    have hpairs : 2 * (loops * (loops + 1) / 2) = loops * (loops + 1) :=
      Nat.mul_div_cancel' (Nat.even_mul_succ_self loops).two_dvd
    have hlost := mul_powers_le hratio.le loops ratio
    rw [series_succ, Nat.add_sub_cancel, Nat.mul_comm (loops + 1)]
    simp only [amounts, List.sum_cons, hfirst]
    generalize (amounts ratio loops ratio).sum = total at *
    generalize loops * (loops + 1) / 2 = pairs at *
    cases loops with
    | zero =>
      have hnone : ratio * powers ratio 0 / scale ^ 0 = 0 := by simp [powers]
      omega
    | succ loops =>
      have hlt : ratio * powers ratio (loops + 1) / scale ^ (loops + 1) < total + pairs := by
        rw [Nat.div_lt_iff_lt_mul (Nat.pow_pos (by decide))]
        rw [← hpairs] at hlost
        linarith
      omega

end Drift

/-- What the truncation of the model takes from the series of a plan. -/
def Plan.drift (p : Plan) : Nat := series p.loopCount p.borrowRatio - p.leverage

theorem Plan.drift_le {p : Plan} (hratio : p.borrowRatio < scale) :
    p.drift ≤ p.loopCount * (p.loopCount - 1) / 2 - 1 := by
  have hle := series_le hratio p.loopCount
  rw [drift, leverage]
  omega

/-- Everything that a schedule supplies, for a principal of `scale`. -/
def Schedule.leverage (s : Schedule) : Nat := s.totalDeposit.toNat * scale / s.principal.toNat

section Realized
variable {principal : Word} {plan : Plan} {s : Schedule}

theorem toNat_totalDeposit_of_plan (hratio : plan.borrowRatio < scale)
    (hs : ofPlan principal plan = .ok s) (hsum : (s.tranches.map BitVec.toNat).sum < 2 ^ 256) :
    s.totalDeposit.toNat = principal.toNat +
      (amounts plan.borrowRatio plan.loopCount principal.toNat).sum := by
  obtain ⟨hprincipal, htail⟩ := ofPlan_ok hs
  have hscale : scale = 10000 := rfl
  rw [toNat_totalDeposit hsum, hprincipal, map_toNat_tail? (by omega) htail]

/-- On a multiple of `scale` every tranche is at least its share of the model. -/
theorem le_leverage_of_plan (hratio : plan.borrowRatio < scale) (hpos : 0 < principal.toNat)
    (hmul : scale ∣ principal.toNat) (hs : ofPlan principal plan = .ok s)
    (hsum : (s.tranches.map BitVec.toNat).sum < 2 ^ 256) : plan.leverage ≤ s.leverage := by
  have hdeposit := toNat_totalDeposit_of_plan hratio hs hsum
  obtain ⟨k, hk⟩ := hmul
  have hshare : k * (amounts plan.borrowRatio plan.loopCount scale).sum ≤
      (amounts plan.borrowRatio plan.loopCount principal.toNat).sum :=
    mul_sum_amounts_le plan.loopCount (by rw [hk, Nat.mul_comm])
  rw [Schedule.leverage, hdeposit, (ofPlan_ok hs).1, Nat.le_div_iff_mul_le hpos, Plan.leverage,
    leverage_eq hratio]
  generalize (amounts plan.borrowRatio plan.loopCount principal.toNat).sum = total at *
  rw [hk]
  calc (scale + (amounts plan.borrowRatio plan.loopCount scale).sum) * (scale * k)
      = (scale * k + k * (amounts plan.borrowRatio plan.loopCount scale).sum) * scale := by ring
    _ ≤ (scale * k + total) * scale := Nat.mul_le_mul_right _ (Nat.add_le_add_left hshare _)

theorem leverage_le_of_plan (hratio : plan.borrowRatio < scale) (hpos : 0 < principal.toNat)
    (hs : ofPlan principal plan = .ok s) (hsum : (s.tranches.map BitVec.toNat).sum < 2 ^ 256) :
    s.leverage ≤ series plan.loopCount plan.borrowRatio := by
  have hdeposit := toNat_totalDeposit_of_plan hratio hs hsum
  have hpow : 0 < scale ^ plan.loopCount := Nat.pow_pos (by decide)
  have hbelow := pow_mul_sum_amounts_le plan.borrowRatio plan.loopCount principal.toNat
  rw [Schedule.leverage, hdeposit, (ofPlan_ok hs).1, series, Nat.le_div_iff_mul_le hpow]
  generalize (amounts plan.borrowRatio plan.loopCount principal.toNat).sum = total at *
  refine Nat.le_of_mul_le_mul_right ?_ hpos
  calc (principal.toNat + total) * scale / principal.toNat * scale ^ plan.loopCount * principal.toNat
      = (principal.toNat + total) * scale / principal.toNat * principal.toNat *
          scale ^ plan.loopCount := by ring
    _ ≤ (principal.toNat + total) * scale * scale ^ plan.loopCount :=
        Nat.mul_le_mul_right _ (Nat.div_mul_le_self _ _)
    _ = scale * (principal.toNat * scale ^ plan.loopCount + scale ^ plan.loopCount * total) := by
        ring
    _ ≤ scale * (principal.toNat * scale ^ plan.loopCount +
          principal.toNat * powers plan.borrowRatio plan.loopCount) :=
        Nat.mul_le_mul_left _ (Nat.add_le_add_left hbelow _)
    _ = scale * (scale ^ plan.loopCount + powers plan.borrowRatio plan.loopCount) *
          principal.toNat := by ring

/-- The drift is reached: it is all there on a principal that no truncation touches. -/
theorem leverage_eq_of_plan (hratio : plan.borrowRatio < scale) (hpos : 0 < principal.toNat)
    (hmul : scale ^ plan.loopCount ∣ principal.toNat) (hs : ofPlan principal plan = .ok s)
    (hsum : (s.tranches.map BitVec.toNat).sum < 2 ^ 256) :
    s.leverage = plan.leverage + plan.drift := by
  have hdeposit := toNat_totalDeposit_of_plan hratio hs hsum
  have hexact : scale ^ plan.loopCount *
      (amounts plan.borrowRatio plan.loopCount principal.toNat).sum =
        principal.toNat * powers plan.borrowRatio plan.loopCount := pow_mul_sum_amounts hmul
  have hseries : plan.leverage + plan.drift = series plan.loopCount plan.borrowRatio := by
    have hle : plan.leverage ≤ series plan.loopCount plan.borrowRatio :=
      leverage_le_series hratio plan.loopCount
    rw [Plan.drift]
    omega
  obtain ⟨k, hk⟩ := hmul
  have hpow : 0 < scale ^ plan.loopCount := Nat.pow_pos (by decide)
  have hk_pos : 0 < k := Nat.pos_of_mul_pos_left (hk ▸ hpos)
  rw [hseries, Schedule.leverage, hdeposit, (ofPlan_ok hs).1, series]
  generalize (amounts plan.borrowRatio plan.loopCount principal.toNat).sum = total at *
  rw [hk, Nat.mul_assoc] at hexact
  have htotal : total = k * powers plan.borrowRatio plan.loopCount :=
    Nat.eq_of_mul_eq_mul_left hpow hexact
  have hcommon : (scale ^ plan.loopCount * k + total) * scale =
      scale * (scale ^ plan.loopCount + powers plan.borrowRatio plan.loopCount) * k := by
    rw [htotal]
    ring
  rw [hk, hcommon, Nat.mul_div_mul_right _ _ hk_pos]

end Realized

namespace Solver
variable {b : Bounds} {target maxLtv : Nat} {plan : Plan} {principal : Word} {s : Schedule}

/-- A solved plan that is carried out reaches its target, but for the window below, and passes it by the
window and the drift of the plan at most. Up to two loops nothing drifts. -/
theorem solve_realized (hsolve : solve b target maxLtv = .ok plan) (hpos : 0 < principal.toNat)
    (hmul : scale ∣ principal.toNat) (hs : ofPlan principal plan = .ok s)
    (hsum : (s.tranches.map BitVec.toNat).sum < 2 ^ 256) :
    target ≤ s.leverage + b.epsilon ∧ s.leverage ≤ target + b.epsilon + plan.drift ∧
      plan.drift ≤ plan.loopCount * (plan.loopCount - 1) / 2 - 1 ∧
      (plan.loopCount ≤ 2 → distance s.leverage target ≤ b.epsilon) := by
  have hratio : plan.borrowRatio < scale :=
    (borrowRatio_le_of_solve hsolve).trans_lt (solve_ok hsolve).1
  have hwindow := distance_le_of_solve hsolve
  have hlow : plan.leverage ≤ s.leverage := le_leverage_of_plan hratio hpos hmul hs hsum
  have hhigh : s.leverage ≤ plan.leverage + plan.drift := by
    have hle := leverage_le_of_plan hratio hpos hs hsum
    rw [Plan.drift]
    omega
  have hdrift := Plan.drift_le hratio
  simp only [distance] at hwindow ⊢
  refine ⟨by omega, by omega, hdrift, fun htwo => ?_⟩
  have hnone : plan.loopCount * (plan.loopCount - 1) / 2 - 1 = 0 := by
    have hpairs : plan.loopCount * (plan.loopCount - 1) ≤ 2 * 1 := Nat.mul_le_mul htwo (by omega)
    omega
  omega

theorem solve_realized_threefold :
    solve {} 30000 8000 = .ok ⟨4, 7406⟩ ∧
    ∃ s, ofPlan (BitVec.ofNat 256 (10 ^ 22)) ⟨4, 7406⟩ = .ok s ∧
      30000 ≤ s.leverage + ({} : Bounds).epsilon ∧
      s.leverage ≤ 30000 + ({} : Bounds).epsilon + Plan.drift ⟨4, 7406⟩ ∧
      Plan.drift ⟨4, 7406⟩ ≤ 5 := by
  have hsolve : solve {} 30000 8000 = .ok ⟨4, 7406⟩ := by decide +kernel
  have hs : ofPlan (BitVec.ofNat 256 (10 ^ 22)) ⟨4, 7406⟩ =
      .ok ⟨BitVec.ofNat 256 (10 ^ 22),
        (amounts 7406 4 (10 ^ 22)).map (BitVec.ofNat 256)⟩ := by decide +kernel
  obtain ⟨hlow, hhigh, hdrift, -⟩ :=
    solve_realized hsolve (by decide +kernel) (by decide +kernel) hs (by decide +kernel)
  exact ⟨hsolve, _, hs, hlow, hhigh, hdrift⟩

/-- With many loops the drift alone is wider than the window: the plan is accepted at a leverage of
150028, and carrying it out realizes 150154 for a target of 150000. -/
theorem realized_beyond_window :
    9500 < scale ∧ solve {} 150000 9500 = .ok ⟨27, 9486⟩ ∧
    scale ∣ (BitVec.ofNat 256 (10 ^ 22)).toNat ∧
    ∃ s, ofPlan (BitVec.ofNat 256 (10 ^ 22)) ⟨27, 9486⟩ = .ok s ∧
      (s.tranches.map BitVec.toNat).sum < 2 ^ 256 ∧ distance s.leverage 150000 = 154 ∧
      ¬ distance s.leverage 150000 ≤ ({} : Bounds).epsilon := by
  refine ⟨by decide, by decide +kernel, by decide +kernel,
    ⟨BitVec.ofNat 256 (10 ^ 22), (amounts 9486 27 (10 ^ 22)).map (BitVec.ofNat 256)⟩, ?_⟩
  decide +kernel

end Solver

end Gearing
