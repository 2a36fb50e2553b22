import Gearing.Proofs.Guard

/-!
What the verdict of the guard says about an account in whole numbers. Collateral that wraps is only undervalued, so
an account that passes carries its debt as long as the debt itself is a word. The one way to no verdict is a debt
whose product with the basis points wraps to zero.
-/
namespace Gearing.Guard
open FixedPoint

def owed (hs : List Holding) : Nat :=
  (hs.map fun h => worth h.debt.toNat h.price.toNat h.decimals).sum

/-- The enabled collateral in whole numbers, each holding at its weight. -/
def backing (weight : Holding → Nat) (hs : List Holding) : Nat :=
  (hs.map fun h =>
    if h.collateralEnabled then worth h.collateral.toNat h.price.toNat h.decimals * weight h else 0).sum

def totalDebt (s : Snapshot) : Word := Word.sum (s.holdings.map debtValue)

/-- The debt is a word, holding by holding and in total, and collateral is divided by a power of ten that is one. -/
structure Representable (hs : List Holding) : Prop where
  debt : ∀ h ∈ hs, ExactValue h.debt h.price h.decimals
  total : (hs.map fun h => (debtValue h).toNat).sum < 2 ^ 256
  collateral : ∀ h ∈ hs, h.collateralEnabled → h.decimals ≤ 87

section Sums
variable {hs : List Holding}

theorem collateralValue_le {h : Holding} (hdecimals : h.collateralEnabled → h.decimals ≤ 87) :
    (collateralValue h).toNat ≤
      if h.collateralEnabled then worth h.collateral.toNat h.price.toNat h.decimals else 0 := by
  unfold collateralValue
  split
  · rename_i henabled
    exact value_le_worth (hdecimals henabled)
  · exact Nat.le_refl 0

theorem weighted_le_backing (weight : Holding → Nat)
    (h : ∀ a ∈ hs, a.collateralEnabled → a.decimals ≤ 87) :
    (weighted weight hs).toNat ≤ backing weight hs := by
  refine (Word.holds_sum _).le.trans ?_
  rw [List.map_map]
  refine List.sum_le_sum fun a ha => ?_
  have hvalue := collateralValue_le (h a ha)
  have hweight : (BitVec.ofNat 256 (weight a)).toNat ≤ weight a := by
    rw [BitVec.toNat_ofNat]
    exact Nat.mod_le _ _
  have hproduct := (toNat_mul_le (collateralValue a) (BitVec.ofNat 256 (weight a))).trans
    (Nat.mul_le_mul hvalue hweight)
  rwa [ite_mul, Nat.zero_mul] at hproduct

theorem owed_le {s : Snapshot} (h : Representable s.holdings) : owed s.holdings ≤ (totalDebt s).toNat := by
  rw [totalDebt, toNat_totalDebt h.total]
  exact List.sum_le_sum fun a ha => worth_le_value (h.debt a ha)

end Sums

section Factor
variable {debt : Word}

/-- Ten thousand is sixteen times an odd number, so this is where the divisor of the health factor wraps to zero. -/
theorem mul_bps_eq_zero_iff : debt * bps = 0 ↔ 2 ^ 252 ∣ debt.toNat := by
  have hbps : bps.toNat = 625 * 2 ^ 4 := rfl
  have hmod : debt * bps = 0 ↔ 2 ^ 256 ∣ debt.toNat * bps.toNat := by
    rw [Nat.dvd_iff_mod_eq_zero, ← BitVec.toNat_mul]
    exact ⟨fun h => by rw [h]; rfl, fun h => BitVec.eq_of_toNat_eq h⟩
  have hsplit : (2 : Nat) ^ 256 = 2 ^ 252 * 2 ^ 4 := by decide
  have hcoprime : Nat.Coprime (2 ^ 252) 625 := Nat.Coprime.pow_left 252 (by decide)
  rw [hmod, hbps, hsplit, ← Nat.mul_assoc, Nat.mul_dvd_mul_iff_right (by decide)]
  exact ⟨hcoprime.dvd_of_dvd_mul_right, fun h => h.mul_right _⟩

theorem healthFactor_trapped_iff (weighted : Word) :
    (∃ trap, healthFactor weighted debt = .error trap) ↔ debt ≠ 0 ∧ 2 ^ 252 ∣ debt.toNat := by
  rw [← mul_bps_eq_zero_iff, healthFactor]
  split
  · rename_i hzero
    simp [hzero]
  · rename_i hdebt
    rw [Word.quotient]
    split
    · rename_i hwraps
      exact ⟨fun _ => ⟨hdebt, hwraps⟩, fun _ => ⟨_, rfl⟩⟩
    · rename_i hwraps
      constructor
      · rintro ⟨trap, h⟩
        cases h
      · intro h
        exact absurd h.2 hwraps

/-- What a factor of a debt within the capacity says: the product of such a debt with the basis points fits. -/
theorem floor_mul_le {weighted floor factor : Word} (hdebt : debt ≠ 0) (hfits : debt.toNat * scale < 2 ^ 256)
    (hfactor : healthFactor weighted debt = .ok factor) (hfloor : floor ≤ factor) :
    floor.toNat * debt.toNat * scale ≤ weighted.toNat * wad.toNat := by
  have hbps : bps.toNat = scale := rfl
  have hproduct : (debt * bps).toNat = debt.toNat * scale := toNat_mul_of_lt hfits
  rw [healthFactor, if_neg hdebt, Word.quotient] at hfactor
  split at hfactor
  · cases hfactor
  · cases hfactor
    rw [BitVec.le_def, BitVec.toNat_udiv, hproduct] at hfloor
    calc floor.toNat * debt.toNat * scale = floor.toNat * (debt.toNat * scale) := Nat.mul_assoc ..
      _ ≤ (weighted * wad).toNat / (debt.toNat * scale) * (debt.toNat * scale) :=
        Nat.mul_le_mul_right _ hfloor
      _ ≤ (weighted * wad).toNat := Nat.div_mul_le_self _ _
      _ ≤ weighted.toNat * wad.toNat := toNat_mul_le _ _

end Factor

section Verdicts
variable {g : Guard} {borrowed : Bool} {s : Snapshot} {report : HealthReport}

theorem assess_eq (s : Snapshot) : assess s =
    (healthFactor (weighted (·.liquidationThresholdBps) s.holdings) (totalDebt s)).map fun factor =>
      { collateral := Word.sum (s.holdings.map collateralValue)
        debt := totalDebt s
        capacity := weighted (·.ltvBps) s.holdings / bps
        healthFactor := factor } := by
  rw [assess, totalDebt]
  cases healthFactor (weighted (·.liquidationThresholdBps) s.holdings)
    (Word.sum (s.holdings.map debtValue)) <;> rfl

theorem check_trapped_iff : (∃ trap, g.check borrowed s = .error (.trapped trap)) ↔
    totalDebt s ≠ 0 ∧ 2 ^ 252 ∣ (totalDebt s).toNat := by
  rw [← healthFactor_trapped_iff (weighted (·.liquidationThresholdBps) s.holdings), check,
    assess_eq]
  cases healthFactor (weighted (·.liquidationThresholdBps) s.holdings) (totalDebt s) with
  | error trap => exact ⟨fun _ => ⟨trap, rfl⟩, fun _ => ⟨trap, rfl⟩⟩
  | ok factor =>
    simp only [Except.map]
    constructor
    · rintro ⟨trap, h⟩
      split at h <;> cases h
    · rintro ⟨trap, h⟩
      cases h

theorem check_ok (h : g.check borrowed s = .ok report) : totalDebt s = 0 ∨ ∃ factor,
    healthFactor (weighted (·.liquidationThresholdBps) s.holdings) (totalDebt s) = .ok factor ∧
      (borrowed → totalDebt s ≤ weighted (·.ltvBps) s.holdings / bps) ∧ g.floor ≤ factor := by
  rw [check, assess_eq] at h
  cases hfactor : healthFactor (weighted (·.liquidationThresholdBps) s.holdings) (totalDebt s) with
  | error trap =>
    rw [hfactor] at h
    cases h
  | ok factor =>
    simp only [hfactor, Except.map] at h
    split at h
    · rename_i haccepts
      exact (accepts_iff.mp haccepts).imp_right fun hpassed => ⟨factor, rfl, hpassed⟩
    · cases h

/-- The guard has a verdict unless the debt it adds up is a multiple of `2 ^ 252`, and an account that it passes
after a borrow has the capacity and the floor in whole numbers too, where its debt is representable. -/
theorem check_in_whole_numbers (g : Guard) (s : Snapshot) :
    (∀ borrowed, (∃ trap, g.check borrowed s = .error (.trapped trap)) ↔
      totalDebt s ≠ 0 ∧ 2 ^ 252 ∣ (totalDebt s).toNat) ∧
    (Representable s.holdings → ∀ report, g.check true s = .ok report →
      owed s.holdings = 0 ∨
      (owed s.holdings * scale ≤ backing (·.ltvBps) s.holdings ∧
        g.floor.toNat * owed s.holdings * scale ≤
          backing (·.liquidationThresholdBps) s.holdings * wad.toNat)) := by
  refine ⟨fun borrowed => check_trapped_iff, fun hs report hcheck => ?_⟩
  have howed := owed_le hs
  have hcollateral := weighted_le_backing (·.ltvBps) hs.collateral
  have hthreshold := weighted_le_backing (·.liquidationThresholdBps) hs.collateral
  rcases check_ok hcheck with hzero | ⟨factor, hfactor, hcapacity, hfloor⟩
  · left
    rw [hzero] at howed
    exact Nat.le_zero.mp howed
  by_cases hzero : totalDebt s = 0
  · left
    rw [hzero] at howed
    exact Nat.le_zero.mp howed
  right
  have hbps : bps.toNat = scale := rfl
  have hwithin := BitVec.le_def.mp (hcapacity rfl)
  rw [BitVec.toNat_udiv, hbps, Nat.le_div_iff_mul_le (by decide)] at hwithin
  have hfits : (totalDebt s).toNat * scale < 2 ^ 256 := hwithin.trans_lt (BitVec.isLt _)
  have habove := floor_mul_le hzero hfits hfactor hfloor
  constructor
  · exact (Nat.mul_le_mul_right _ howed).trans (hwithin.trans hcollateral)
  · calc g.floor.toNat * owed s.holdings * scale
        ≤ g.floor.toNat * (totalDebt s).toNat * scale :=
          Nat.mul_le_mul_right _ (Nat.mul_le_mul_left _ howed)
      _ ≤ (weighted (·.liquidationThresholdBps) s.holdings).toNat * wad.toNat := habove
      _ ≤ backing (·.liquidationThresholdBps) s.holdings * wad.toNat := Nat.mul_le_mul_right _ hthreshold

/-- A holding of a token with ten decimals, so that its values are the products of amount and price. -/
def sampleHolding (collateral debt price : Word) : Holding :=
  { asset := ⟨1⟩, collateral, debt, price, decimals := 10, ltvBps := 8000, liquidationThresholdBps := 8500 }

/-- An account whose second collateral wraps to nothing, and whose first one carries all of the debt. -/
def sampleSnapshot : Snapshot :=
  ⟨⟨7⟩, [sampleHolding 5000 4000 (BitVec.ofNat 256 (10 ^ 8)), sampleHolding (BitVec.ofNat 256 (2 ^ 255)) 0 2]⟩

theorem check_in_whole_numbers_undervalued :
    Representable sampleSnapshot.holdings ∧ (∃ report, check {} true sampleSnapshot = .ok report) ∧
    owed sampleSnapshot.holdings ≠ 0 ∧
    owed sampleSnapshot.holdings * scale ≤ backing (·.ltvBps) sampleSnapshot.holdings ∧
    wad.toNat * owed sampleSnapshot.holdings * scale ≤
      backing (·.liquidationThresholdBps) sampleSnapshot.holdings * wad.toNat := by
  have hs : Representable sampleSnapshot.holdings :=
    ⟨by decide +kernel, by decide +kernel, by decide +kernel⟩
  have hpasses : (check {} true sampleSnapshot).toOption.isSome := by decide +kernel
  have howed : owed sampleSnapshot.holdings ≠ 0 := by decide +kernel
  cases hcheck : check {} true sampleSnapshot with
  | error e =>
    rw [hcheck] at hpasses
    cases hpasses
  | ok report =>
    have hverdict := (check_in_whole_numbers {} sampleSnapshot).2 hs report hcheck
    exact ⟨hs, ⟨report, rfl⟩, howed, hverdict.resolve_left howed⟩

/-- Two collaterals of 88 decimals, which are worth nothing, and a debt of one. -/
def sampleDust : List Holding :=
  let dust : Holding := { sampleHolding Word.greatest 0 1 with decimals := 88 }
  [dust, dust, sampleHolding 0 1 1]

/-- A debt of `2 ^ 252` has no verdict; one of `2 ^ 256` passes without any collateral, and so does one against
collateral that is divided by a wrapped power of ten. -/
theorem wrapped_verdicts :
    (∃ trap, check {} true ⟨⟨7⟩, [sampleHolding 0 (BitVec.ofNat 256 (2 ^ 252)) 1]⟩ =
      .error (.trapped trap)) ∧
    ((∃ report, check {} true ⟨⟨7⟩, [sampleHolding 0 2 (BitVec.ofNat 256 (2 ^ 255))]⟩ = .ok report) ∧
      owed [sampleHolding 0 2 (BitVec.ofNat 256 (2 ^ 255))] = 2 ^ 256 ∧
      backing (·.ltvBps) [sampleHolding 0 2 (BitVec.ofNat 256 (2 ^ 255))] = 0) ∧
    (∃ report, check {} true ⟨⟨7⟩, sampleDust⟩ = .ok report) ∧
      owed sampleDust = 1 ∧ backing (·.ltvBps) sampleDust = 0 := by
  refine ⟨⟨.zeroDivision, ?_⟩, ⟨⟨⟨0, 0, 0, Word.greatest⟩, ?_⟩, ?_, ?_⟩,
    ⟨⟨2, 1, 1, BitVec.ofNat 256 (17 * 10 ^ 17)⟩, ?_⟩, ?_, ?_⟩
  all_goals decide +kernel

end Verdicts

end Gearing.Guard
