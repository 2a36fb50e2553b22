import Gearing.Guard
import Gearing.Proofs.Worth
import Mathlib.Algebra.BigOperators.Ring.List
import Mathlib.Algebra.Order.BigOperators.Group.List
import Mathlib.Algebra.Order.Group.Nat
import Mathlib.Tactic.Ring

/-!
When the guard accepts an account. Each holding whose collateral carries its own debt, by the loan-to-value
limit and by the floor of the health factor, adds up to an account that the guard passes, since the
weighted sums are divided only once.
-/
namespace Gearing

namespace Guard
open FixedPoint

/-- Nothing wraps when the guard assesses these holdings. -/
@[mk_iff]
structure Exact (hs : List Holding) : Prop where
  collateral : ∀ h ∈ hs, h.collateralEnabled → ExactValue h.collateral h.price h.decimals
  debt : ∀ h ∈ hs, ExactValue h.debt h.price h.decimals
  capacity : (hs.map fun h => (collateralValue h).toNat * h.ltvBps).sum < 2 ^ 256
  weighted : (hs.map fun h => (collateralValue h).toNat * h.liquidationThresholdBps).sum < 2 ^ 256
  totalDebt : (hs.map fun h => (debtValue h).toNat).sum * scale < 2 ^ 256
  /-- Without debt there is no factor to work out. -/
  factor : (hs.map fun h => (debtValue h).toNat).sum ≠ 0 →
    (hs.map fun h => (collateralValue h).toNat * h.liquidationThresholdBps).sum * wad.toNat < 2 ^ 256

instance (hs : List Holding) : Decidable (Exact hs) := decidable_of_iff' _ (exact_iff hs)

/-- The collateral of the holding carries its debt, by the limit and by the floor. -/
structure Carries (g : Guard) (h : Holding) : Prop where
  limit : (debtValue h).toNat * scale ≤ (collateralValue h).toNat * h.ltvBps
  floor : g.floor.toNat * ((debtValue h).toNat * scale) ≤
    (collateralValue h).toNat * h.liquidationThresholdBps * wad.toNat

theorem debtValue_of_debt_zero {h : Holding} (hdebt : h.debt = 0) : debtValue h = 0 := if_pos (.inl hdebt)

theorem carries_of_debt_zero (g : Guard) {h : Holding} (hdebt : h.debt = 0) : g.Carries h := by
  have hvalue := debtValue_of_debt_zero hdebt
  constructor
  · simp [hvalue]
  · simp [hvalue]

theorem carries_of_limit {g : Guard} {h : Holding}
    (hroom : g.floor.toNat * h.ltvBps ≤ wad.toNat * h.liquidationThresholdBps)
    (hlimit : (debtValue h).toNat * scale ≤ (collateralValue h).toNat * h.ltvBps) : g.Carries h where
  limit := hlimit
  floor := by
    calc g.floor.toNat * ((debtValue h).toNat * scale)
        ≤ g.floor.toNat * ((collateralValue h).toNat * h.ltvBps) := Nat.mul_le_mul_left _ hlimit
      _ = (collateralValue h).toNat * (g.floor.toNat * h.ltvBps) := by ring
      _ ≤ (collateralValue h).toNat * (wad.toNat * h.liquidationThresholdBps) :=
        Nat.mul_le_mul_left _ hroom
      _ = (collateralValue h).toNat * h.liquidationThresholdBps * wad.toNat := by ring

theorem carries_of_amounts {g : Guard} {h : Holding} (hprice : ExactPrice h.price h.decimals)
    (henabled : h.collateralEnabled) (hcollateral : ExactValue h.collateral h.price h.decimals)
    (hdebt : ExactValue h.debt h.price h.decimals)
    (hroom : g.floor.toNat * h.ltvBps ≤ wad.toNat * h.liquidationThresholdBps)
    (hlimit : h.debt.toNat * scale ≤ h.collateral.toNat * h.ltvBps) : g.Carries h := by
  refine carries_of_limit hroom ?_
  rw [debtValue, collateralValue, if_pos henabled, toNat_value_eq_mul hprice hdebt,
    toNat_value_eq_mul hprice hcollateral]
  generalize worth 1 h.price.toNat h.decimals = unit
  calc h.debt.toNat * unit * scale = h.debt.toNat * scale * unit := Nat.mul_right_comm ..
    _ ≤ h.collateral.toNat * h.ltvBps * unit := Nat.mul_le_mul_right _ hlimit
    _ = h.collateral.toNat * unit * h.ltvBps := Nat.mul_right_comm ..

section Sums
variable {hs : List Holding}

theorem sum_limit {g : Guard} (h : ∀ a ∈ hs, g.Carries a) :
    (hs.map fun a => (debtValue a).toNat).sum * scale ≤
      (hs.map fun a => (collateralValue a).toNat * a.ltvBps).sum := by
  rw [← List.sum_map_mul_right]
  exact List.sum_le_sum fun a ha => (h a ha).limit

theorem sum_floor {g : Guard} (h : ∀ a ∈ hs, g.Carries a) :
    g.floor.toNat * ((hs.map fun a => (debtValue a).toNat).sum * scale) ≤
      (hs.map fun a => (collateralValue a).toNat * a.liquidationThresholdBps).sum * wad.toNat := by
  rw [← List.sum_map_mul_right, ← List.sum_map_mul_left, ← List.sum_map_mul_right]
  exact List.sum_le_sum fun a ha => (h a ha).floor

theorem toNat_weighted {weight : Holding → Nat}
    (h : (hs.map fun a => (collateralValue a).toNat * weight a).sum < 2 ^ 256) :
    (weighted weight hs).toNat = (hs.map fun a => (collateralValue a).toNat * weight a).sum := by
  have hmap : (hs.map fun a => collateralValue a * BitVec.ofNat 256 (weight a)).map BitVec.toNat =
      hs.map fun a => (collateralValue a).toNat * weight a := by
    rw [List.map_map]
    refine List.map_congr_left fun a ha => ?_
    have hmem : (collateralValue a).toNat * weight a ∈
        hs.map fun a => (collateralValue a).toNat * weight a := List.mem_map_of_mem ha
    exact toNat_mul_ofNat_of_lt ((List.le_sum_of_mem hmem).trans_lt h)
  rw [weighted, Word.toNat_sum (by rw [hmap]; exact h), hmap]

theorem toNat_totalDebt (h : (hs.map fun a => (debtValue a).toNat).sum < 2 ^ 256) :
    (Word.sum (hs.map debtValue)).toNat = (hs.map fun a => (debtValue a).toNat).sum := by
  have hmap : (hs.map debtValue).map BitVec.toNat = hs.map fun a => (debtValue a).toNat :=
    List.map_map
  rw [Word.toNat_sum (by rw [hmap]; exact h), hmap]

end Sums

theorem healthFactor_eq {weighted debt : Word} (hdebt : debt ≠ 0)
    (h : debt.toNat * scale < 2 ^ 256) (hweighted : weighted.toNat * wad.toNat < 2 ^ 256) :
    ∃ factor : Word, healthFactor weighted debt = .ok factor ∧
      factor.toNat = weighted.toNat * wad.toNat / (debt.toNat * scale) := by
  have hbps : bps.toNat = scale := rfl
  have hproduct : (debt * bps).toNat = debt.toNat * scale := toNat_mul_of_lt h
  have hpos : 0 < debt.toNat := Nat.pos_of_ne_zero fun hzero => hdebt (BitVec.eq_of_toNat_eq hzero)
  have hne : debt * bps ≠ 0 := by
    intro hzero
    rw [hzero] at hproduct
    have hscale : 0 < debt.toNat * scale := Nat.mul_pos hpos (by decide)
    have hnat : (0 : Word).toNat = 0 := rfl
    omega
  refine ⟨weighted * wad / (debt * bps), ?_, ?_⟩
  · rw [healthFactor, if_neg hdebt, Word.quotient, if_neg hne]
  · rw [BitVec.toNat_udiv, hproduct, toNat_mul_of_lt hweighted]

theorem assess_exact {s : Snapshot} (hexact : Exact s.holdings) :
    ∃ report, assess s = .ok report ∧
      report.debt.toNat = (s.holdings.map fun a => (debtValue a).toNat).sum ∧
      report.capacity.toNat =
        (s.holdings.map fun a => (collateralValue a).toNat * a.ltvBps).sum / scale ∧
      (report.debt ≠ 0 → report.healthFactor.toNat =
        (s.holdings.map fun a => (collateralValue a).toNat * a.liquidationThresholdBps).sum *
          wad.toNat / ((s.holdings.map fun a => (debtValue a).toNat).sum * scale)) := by
  have hdebt := toNat_totalDebt ((Nat.le_mul_of_pos_right _ (by decide)).trans_lt hexact.totalDebt)
  have hweighted := toNat_weighted hexact.weighted
  have hcapacity : (weighted (·.ltvBps) s.holdings / bps).toNat =
      (s.holdings.map fun a => (collateralValue a).toNat * a.ltvBps).sum / scale := by
    have hbps : bps.toNat = scale := rfl
    rw [BitVec.toNat_udiv, hbps, toNat_weighted hexact.capacity]
  have htotal := hexact.totalDebt
  have hfactorExact := hexact.factor
  rw [← hdebt] at htotal
  rw [← hdebt, ← hweighted] at hfactorExact
  rw [← hdebt, ← hweighted, ← hcapacity]
  by_cases hzero : Word.sum (s.holdings.map debtValue) = 0
  · rw [assess, hzero, healthFactor, if_pos rfl]
    exact ⟨_, rfl, rfl, rfl, fun hne => absurd rfl hne⟩
  · have hpos : (Word.sum (s.holdings.map debtValue)).toNat ≠ 0 :=
      fun h => hzero (BitVec.eq_of_toNat_eq h)
    obtain ⟨factor, hfactor, hnat⟩ := healthFactor_eq hzero htotal (hfactorExact hpos)
    rw [assess, hfactor]
    exact ⟨_, rfl, rfl, rfl, fun _ => hnat⟩

/-- What the guard asks of an account, in whole numbers: where there is debt it is within the floor, and after a
borrow within the capacity. -/
def Passes (g : Guard) (borrowed : Bool) (hs : List Holding) : Prop :=
  (hs.map fun a => (debtValue a).toNat).sum = 0 ∨
    (borrowed → (hs.map fun a => (debtValue a).toNat).sum * scale ≤
      (hs.map fun a => (collateralValue a).toNat * a.ltvBps).sum) ∧
    g.floor.toNat * ((hs.map fun a => (debtValue a).toNat).sum * scale) ≤
      (hs.map fun a => (collateralValue a).toNat * a.liquidationThresholdBps).sum * wad.toNat

theorem accepts_iff {g : Guard} {borrowed : Bool} {report : HealthReport} :
    g.accepts borrowed report ↔ report.debt = 0 ∨
      (borrowed → report.debt ≤ report.capacity) ∧ g.floor ≤ report.healthFactor := by
  cases borrowed <;> simp [accepts]

/-- Both divisions of the guard are compared with whole numbers, so they lose nothing. -/
theorem accepts_iff_passes {g : Guard} {borrowed : Bool} {s : Snapshot} {report : HealthReport}
    (hexact : Exact s.holdings) (hassess : assess s = .ok report) :
    g.accepts borrowed report ↔ g.Passes borrowed s.holdings := by
  obtain ⟨_, hassess', hdebt, hcapacity, hfactor⟩ := assess_exact hexact
  cases hassess.symm.trans hassess'
  rw [← hdebt] at hfactor
  rw [accepts_iff, Passes, ← hdebt]
  by_cases hzero : report.debt = 0
  · exact iff_of_true (.inl hzero) (.inl (by rw [hzero]; rfl))
  · have hnat : report.debt.toNat ≠ 0 := fun h => hzero (BitVec.eq_of_toNat_eq h)
    have hpos : 0 < report.debt.toNat * scale := Nat.mul_pos (Nat.pos_of_ne_zero hnat) (by decide)
    refine or_congr (iff_of_false hzero hnat) (and_congr (imp_congr_right fun _ => ?_) ?_)
    · rw [BitVec.le_def, hcapacity, Nat.le_div_iff_mul_le (by decide)]
    · rw [BitVec.le_def, hfactor hzero, Nat.le_div_iff_mul_le hpos]

theorem check_exact (g : Guard) (borrowed : Bool) {s : Snapshot} (hexact : Exact s.holdings) :
    (g.Passes borrowed s.holdings → ∃ report, g.check borrowed s = .ok report) ∧
    (¬ g.Passes borrowed s.holdings → ∃ debt capacity factor, g.check borrowed s =
      .error (.refused (.insufficientCollateral debt capacity factor g.floor))) := by
  obtain ⟨report, hassess, -⟩ := assess_exact hexact
  rw [← accepts_iff_passes hexact hassess]
  simp only [check, hassess]
  exact ⟨fun haccepts => ⟨report, if_pos haccepts⟩, fun hrejects => ⟨_, _, _, if_neg hrejects⟩⟩

theorem check_of_carries {g : Guard} (borrowed : Bool) {s : Snapshot} (hexact : Exact s.holdings)
    (h : ∀ a ∈ s.holdings, g.Carries a) : ∃ report, g.check borrowed s = .ok report :=
  (check_exact g borrowed hexact).1 (.inr ⟨fun _ => sum_limit h, sum_floor h⟩)

theorem check_refuses (g : Guard) {s : Snapshot} (hexact : Exact s.holdings)
    (h : (s.holdings.map fun a => (collateralValue a).toNat * a.ltvBps).sum <
      (s.holdings.map fun a => (debtValue a).toNat).sum * scale) :
    ∃ debt capacity factor,
      g.check true s = .error (.refused (.insufficientCollateral debt capacity factor g.floor)) := by
  refine (check_exact g true hexact).2 ?_
  rintro (hzero | ⟨hwithin, -⟩)
  · simp [hzero] at h
  · exact Nat.not_le_of_lt h (hwithin rfl)

section Limit
variable {principal : Word} {maxLtv : Nat}

/-- The closed formula is the largest borrow within the limit of what is supplied together with it. -/
theorem exists_maxSingleBorrow (hltv : maxLtv < scale) (h : principal.toNat * maxLtv < 2 ^ 256) :
    ∃ m, maxSingleBorrow principal maxLtv = .ok m ∧ ∀ borrow : Word,
      borrow ≤ m ↔ borrow.toNat * scale ≤ maxLtv * (principal.toNat + borrow.toNat) := by
  have hdivisor : (BitVec.ofNat 256 (scale - maxLtv)).toNat = scale - maxLtv := by
    have hscale : scale < 2 ^ 256 := by decide
    exact toNat_ofNat_of_lt (by omega)
  refine ⟨_, if_neg (Nat.not_le_of_lt hltv), fun borrow => ?_⟩
  rw [BitVec.le_def, BitVec.toNat_udiv, hdivisor, toNat_mul_ofNat_of_lt h,
    Nat.le_div_iff_mul_le (by omega), Nat.mul_sub, Nat.mul_add, Nat.mul_comm maxLtv principal.toNat,
    Nat.mul_comm maxLtv borrow.toNat]
  omega

end Limit

end Guard
end Gearing
