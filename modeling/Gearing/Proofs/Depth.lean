import Gearing.Proofs.Guard
import Gearing.Proofs.Series

/-!
Plans of any depth, in tokens and in the model.

Below a ratio of one a plan borrows no more than one loop could, and its leverage stays below the limit of
the series: what a tranche leaves room for is never used up by the tranches after it. Token and model
truncate the same series in different units, and neither falls behind the other by more than one unit for
each pair of a term and a term up to it.
-/
namespace Gearing
open Leverage

namespace Schedule
variable {ratio loops : Nat} {principal : Word} {plan : Plan}

theorem exists_ofPlan (hratio : plan.borrowRatio ≤ scale)
    (h : principal.toNat * plan.borrowRatio < 2 ^ 256) :
    ∃ s, ofPlan principal plan = .ok s ∧ s.principal = principal ∧
      s.borrows.map BitVec.toNat = amounts plan.borrowRatio plan.loopCount principal.toNat := by
  have hscale : scale = 10000 := rfl
  obtain ⟨borrows, htail⟩ := exists_tail? hratio plan.loopCount h
  exact ⟨_, ofPlan_eq_ok htail, rfl, map_toNat_tail? (by omega) htail⟩

section Limit

/-- More loops never pass what one loop with the largest borrow reaches, neither in the model nor in
tokens, and there the sum of the tranches does not wrap either. -/
theorem bounded_at_any_depth (hratio : ratio < scale) (loops : Nat) :
    (∃ limit, asymptote ratio = some limit ∧ Leverage.leverage loops ratio ≤ limit) ∧
    ∀ principal : Word, principal.toNat * ratio < 2 ^ 256 →
      ∃ s most, ofPlan principal ⟨loops, ratio⟩ = .ok s ∧
        s.totalBorrow.toNat = (s.borrows.map BitVec.toNat).sum ∧
        Guard.maxSingleBorrow principal ratio = .ok most ∧ s.totalBorrow ≤ most := by
  have hasymptote : asymptote ratio = some (scale * scale / (scale - ratio)) :=
    if_neg (Nat.not_le_of_lt hratio)
  refine ⟨⟨_, hasymptote, leverage_le_asymptote hasymptote loops⟩, fun principal hfits => ?_⟩
  obtain ⟨s, hs, -, hborrows⟩ := @exists_ofPlan principal ⟨loops, ratio⟩ hratio.le hfits
  obtain ⟨most, hmost, hlargest⟩ := Guard.exists_maxSingleBorrow hratio hfits
  have hbelow := sum_amounts_le hratio loops principal.toNat
  rw [Nat.mul_comm] at hfits
  have htotal : s.totalBorrow.toNat = (s.borrows.map BitVec.toNat).sum :=
    Word.toNat_sum (by rw [hborrows]; exact hbelow.trans_lt hfits)
  refine ⟨s, most, hs, htotal, hmost, (hlargest _).mpr ?_⟩
  rw [htotal, hborrows, Nat.mul_comm _ scale]
  exact scale_mul_sum_amounts ratio loops principal.toNat

/-- The largest principal whose product with the ratio fits, at a ratio that all but diverges. -/
theorem bounded_at_any_depth_steep :
    Leverage.leverage 100000 9999 ≤ 100000000 ∧
    ∃ s most, ofPlan (BitVec.ofNat 256 ((2 ^ 256 - 1) / 9999)) ⟨100000, 9999⟩ = .ok s ∧
      s.totalBorrow.toNat = (s.borrows.map BitVec.toNat).sum ∧
      Guard.maxSingleBorrow (BitVec.ofNat 256 ((2 ^ 256 - 1) / 9999)) 9999 = .ok most ∧
      s.totalBorrow ≤ most := by
  obtain ⟨⟨limit, hlimit, hle⟩, hplans⟩ := bounded_at_any_depth (show 9999 < scale by decide) 100000
  have hasymptote : asymptote 9999 = some 100000000 := by decide
  cases hasymptote.symm.trans hlimit
  exact ⟨hle, hplans _ (by decide)⟩

end Limit

section Model

theorem leverage_eq_sum (hratio : ratio ≤ scale) (hloops : loops < 2 ^ 32) :
    Leverage.leverage loops ratio = scale + (amounts ratio loops scale).sum := by
  have hsum := sum_amounts_le_mul hratio loops scale
  have hproduct : loops * scale ≤ 2 ^ 32 * scale := Nat.mul_le_mul_right _ hloops.le
  have hlimit : scale + 2 ^ 32 * scale ≤ limit := by decide
  exact grow_eq hratio le_rfl (by omega)

/-- Two sequences of tranches in different units, where the first one is ahead by `j` units of the second at
most. Each further tranche adds one unit to the lead: what the second one truncates there. -/
theorem mul_sum_amounts_le_add {k k' j each each' : Nat} (hratio : ratio ≤ scale) (loops : Nat)
    (h : k * each ≤ k' * (each' + j)) :
    2 * (k * (amounts ratio loops each).sum) ≤
      k' * (2 * (amounts ratio loops each').sum + loops * (loops + 1 + 2 * j)) := by
  induction loops generalizing each each' j with
  | zero => simp [amounts]
  | succ loops ih =>
    have hnext : scale * (each * ratio / scale) ≤ each * ratio := Nat.mul_div_le _ _
    have hnext' : each' * ratio ≤ scale * (each' * ratio / scale + 1) :=
      (Nat.lt_mul_div_succ (each' * ratio) (by decide)).le
    have hlead : j * ratio ≤ scale * j := Nat.mul_comm j scale ▸ Nat.mul_le_mul_left j hratio
    have hstep : k * (each * ratio / scale) ≤ k' * (each' * ratio / scale + (j + 1)) := by
      refine Nat.le_of_mul_le_mul_left ?_ (show 0 < scale by decide)
      calc scale * (k * (each * ratio / scale)) = k * (scale * (each * ratio / scale)) := by ring
        _ ≤ k * (each * ratio) := Nat.mul_le_mul_left _ hnext
        _ = k * each * ratio := (Nat.mul_assoc ..).symm
        _ ≤ k' * (each' + j) * ratio := Nat.mul_le_mul_right _ h
        _ = k' * (each' * ratio + j * ratio) := by ring
        _ ≤ k' * (scale * (each' * ratio / scale + 1) + scale * j) :=
          Nat.mul_le_mul_left _ (Nat.add_le_add hnext' hlead)
        _ = scale * (k' * (each' * ratio / scale + (j + 1))) := by ring
    have hrest := ih hstep
    simp only [amounts, List.sum_cons]
    generalize each * ratio / scale = next at *
    generalize each' * ratio / scale = next' at *
    generalize (amounts ratio loops next).sum = total at *
    generalize (amounts ratio loops next').sum = total' at *
    calc 2 * (k * (next + total)) = 2 * (k * next) + 2 * (k * total) := by ring
      _ ≤ 2 * (k' * (next' + (j + 1))) + k' * (2 * total' + loops * (loops + 1 + 2 * (j + 1))) :=
        Nat.add_le_add (Nat.mul_le_mul_left 2 hstep) hrest
      _ = k' * (2 * (next' + total') + (loops + 1) * (loops + 1 + 1 + 2 * j)) := by ring

theorem mul_sum_amounts_le_pairs {k k' each each' : Nat} (hratio : ratio ≤ scale) (loops : Nat)
    (h : k * each ≤ k' * each') :
    k * (amounts ratio loops each).sum ≤
      k' * ((amounts ratio loops each').sum + loops * (loops + 1) / 2) := by
  have hpairs : 2 * (loops * (loops + 1) / 2) = loops * (loops + 1) :=
    Nat.mul_div_cancel' (Nat.even_mul_succ_self loops).two_dvd
  have hlead := mul_sum_amounts_le_add (j := 0) hratio loops h
  rw [Nat.mul_zero, Nat.add_zero, ← hpairs, ← Nat.mul_add] at hlead
  refine Nat.le_of_mul_le_mul_left ?_ (show 0 < 2 by decide)
  rwa [Nat.mul_left_comm 2 k']

/-- What a plan supplies, against the leverage of the model: neither is ahead of the other by more than a
unit of the one behind for each pair of terms. From a multiple of `scale` the tokens are never behind, and
from `scale` itself both are the same numbers. -/
theorem ofPlan_tracks_leverage (hratio : plan.borrowRatio ≤ scale) (hloops : plan.loopCount < 2 ^ 32)
    (hproduct : principal.toNat * scale < 2 ^ 256)
    (hsum : (plan.loopCount + 1) * principal.toNat < 2 ^ 256) :
    ∃ s, ofPlan principal plan = .ok s ∧
      principal.toNat * plan.leverage ≤
        scale * s.totalDeposit.toNat + scale * (plan.loopCount * (plan.loopCount + 1) / 2) ∧
      scale * s.totalDeposit.toNat ≤
        principal.toNat * (plan.leverage + plan.loopCount * (plan.loopCount + 1) / 2) ∧
      (scale ∣ principal.toNat → principal.toNat * plan.leverage ≤ scale * s.totalDeposit.toNat) ∧
      (principal.toNat = scale → s.totalDeposit.toNat = plan.leverage) := by
  obtain ⟨s, hs, hprincipal, hborrows⟩ :=
    exists_ofPlan hratio ((Nat.mul_le_mul_left _ hratio).trans_lt hproduct)
  have hbound := sum_amounts_le_mul hratio plan.loopCount principal.toNat
  rw [Nat.succ_mul] at hsum
  have hdeposit : s.totalDeposit.toNat =
      principal.toNat + (amounts plan.borrowRatio plan.loopCount principal.toNat).sum := by
    rw [toNat_totalDeposit, hprincipal, hborrows]
    rw [tranches, List.map_cons, List.sum_cons, hprincipal, hborrows]
    omega
  have hbehind := mul_sum_amounts_le_pairs hratio plan.loopCount (Nat.mul_comm principal.toNat scale).le
  have hahead := mul_sum_amounts_le_pairs hratio plan.loopCount (Nat.mul_comm scale principal.toNat).le
  have hmodel : plan.leverage = scale + (amounts plan.borrowRatio plan.loopCount scale).sum :=
    leverage_eq_sum hratio hloops
  refine ⟨s, hs, ?_, ?_, fun hmul => ?_, fun hequal => ?_⟩
  · rw [hdeposit, hmodel]
    linarith
  · rw [hdeposit, hmodel]
    linarith
  · obtain ⟨k, hk⟩ := hmul
    have hunits : k * scale ≤ principal.toNat := by rw [hk, Nat.mul_comm]
    have hshare : k * (amounts plan.borrowRatio plan.loopCount scale).sum ≤
        (amounts plan.borrowRatio plan.loopCount principal.toNat).sum :=
      mul_sum_amounts_le plan.loopCount hunits
    rw [hdeposit, hmodel, Nat.mul_add, Nat.mul_add, Nat.mul_comm principal.toNat scale]
    refine Nat.add_le_add_left ?_ _
    rw [hk, Nat.mul_assoc, ← hk]
    exact Nat.mul_le_mul_left scale hshare
  · rw [hdeposit, hmodel, hequal]

/-- Seven units lose one more at each of three loops, six in all, where the model loses next to nothing. -/
theorem ofPlan_tracks_leverage_dust :
    ∃ s, ofPlan 7 ⟨3, 9999⟩ = .ok s ∧
      scale * (s.totalDeposit.toNat + 5) < 7 * Leverage.leverage 3 9999 ∧
      7 * Leverage.leverage 3 9999 ≤ scale * s.totalDeposit.toNat + scale * 6 ∧
      scale * s.totalDeposit.toNat ≤ 7 * (Leverage.leverage 3 9999 + 6) := by
  obtain ⟨s, hs, hbehind, hahead, -⟩ :=
    @ofPlan_tracks_leverage 7 ⟨3, 9999⟩ (by decide) (by decide) (by decide) (by decide)
  have hplan : ofPlan 7 ⟨3, 9999⟩ = .ok ⟨7, [6, 5, 4]⟩ := by decide +kernel
  cases hplan.symm.trans hs
  exact ⟨_, hs, by decide +kernel, hbehind, hahead⟩

end Model

end Schedule
end Gearing
