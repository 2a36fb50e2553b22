import Gearing.Proofs.Market
import Gearing.Proofs.Verdict
import Gearing.Proofs.Pool.Books

/-!
What an accepted account says about solvency, on a pool that is built from a validated market. Validation keeps every
loan-to-value limit below one, so the capacity is below the collateral and a run that borrowed is solvent. It bounds
a liquidation threshold from below only: without a borrow the debt is within the collateral times the greatest
threshold, which is the collateral itself where no threshold is above one.
-/
namespace Gearing

namespace Pool

/-- The risk limits of each reserve: its loan to value and its liquidation threshold. -/
def limits (p : Pool) : List (Nat × Nat) := p.reserves.map fun r => (r.ltvBps, r.liquidationThresholdBps)

section
variable {p q : Pool} {op : Op} {a : Answer}

theorem limits_mapReserve (p : Pool) (asset : Address) {f : Reserve → Reserve}
    (hf : ∀ r, (f r).ltvBps = r.ltvBps ∧ (f r).liquidationThresholdBps = r.liquidationThresholdBps) :
    (p.mapReserve asset f).limits = p.limits := by
  simp only [limits, mapReserve, List.map_map]
  refine List.map_congr_left fun r _ => ?_
  by_cases h : r.asset = asset <;> simp [h, hf]

theorem limits_mapLiquidity (p : Pool) (asset : Address) (f : Word → Word) :
    (p.mapLiquidity asset f).limits = p.limits :=
  p.limits_mapReserve asset (f := fun r => { r with liquidity := f r.liquidity }) fun _ => ⟨rfl, rfl⟩

theorem limits_undoAll (p : Pool) (es : List Entry) : (p.undoAll es).limits = p.limits := by
  refine undoAll_keeps limits (fun p e => ?_) p es
  rw [limits, reserves_undo]
  exact limits_mapLiquidity ..

theorem mem_limits_list {r : Reserve} {x : Nat × Nat} (h : x ∈ (p.list r).limits) :
    x ∈ p.limits ∨ x = (r.ltvBps, r.liquidationThresholdBps) := by
  unfold list at h
  split at h
  · obtain ⟨r', hr', rfl⟩ := List.mem_map.mp h
    obtain ⟨r₀, hr₀, rfl⟩ := List.mem_map.mp hr'
    split
    · exact .inr rfl
    · exact .inl (List.mem_map_of_mem hr₀)
  · obtain ⟨r', hr', rfl⟩ := List.mem_map.mp h
    rcases List.mem_append.mp hr' with hr' | hr'
    · exact .inl (List.mem_map_of_mem hr')
    · rw [List.mem_singleton.mp hr']
      exact .inr rfl

end

end Pool

namespace Market
open Pool

/-- One of the market's reserves, as a listing is taken into a pool. -/
def Lists (m : Market) (r : Reserve) : Prop := ∃ l ∈ m.listings, l.reserve = .ok r

/-- Operations on a pool of the market: only its reserves are listed, and no later change of a reserve touches its
risk limits. -/
def Permits (m : Market) : Op → Prop
  | .list r => m.Lists r
  | .updateReserve _ c => c.ltvBps = none ∧ c.liquidationThresholdBps = none
  | _ => True

/-- Pools that are built from the market's reserves, whatever was done on them since. -/
def Builds (m : Market) (p : Pool) : Prop :=
  ∃ feeBps wrappedNative ops, (∀ op ∈ ops, m.Permits op) ∧ p = history { feeBps, wrappedNative } ops

/-- Every reserve of the pool has the risk limits of a listing. -/
def Bounds (m : Market) (p : Pool) : Prop :=
  ∀ x ∈ p.limits, ∃ l ∈ m.listings, x = (l.ltvBps, l.liquidationThresholdBps)

section
variable {m : Market} {p q : Pool} {op : Op} {a : Answer}

theorem Lists.limits {r : Reserve} (h : m.Lists r) :
    ∃ l ∈ m.listings, r.ltvBps = l.ltvBps ∧ r.liquidationThresholdBps = l.liquidationThresholdBps := by
  obtain ⟨l, hl, hreserve⟩ := h
  obtain ⟨asset, -, rfl⟩ := exists_of_map_ok hreserve
  exact ⟨l, hl, rfl, rfl⟩

theorem Bounds.effect (h : m.Bounds p) (hop : m.Permits op) (heffect : p.Effect op a q) : m.Bounds q := by
  have hplain : op.Plain → m.Bounds q := by
    intro hplain
    obtain ⟨asset, f, hreserves⟩ := heffect.reserves_eq hplain
    have hlimits : q.limits = p.limits := by
      rw [Pool.limits, hreserves]
      exact limits_mapLiquidity p asset f
    rwa [Bounds, hlimits]
  cases heffect with
  | list r =>
    intro x hx
    rcases mem_limits_list hx with hx | rfl
    · exact h x hx
    · obtain ⟨l, hl, hltv, hthreshold⟩ := Lists.limits hop
      exact ⟨l, hl, by rw [hltv, hthreshold]⟩
  | @updateReserve asset c r listed =>
    have hpatch : ∀ r : Reserve, (r.patch c).ltvBps = r.ltvBps ∧
        (r.patch c).liquidationThresholdBps = r.liquidationThresholdBps := by
      intro r
      simp only [Reserve.patch, hop.1, hop.2]
      exact ⟨rfl, rfl⟩
    rwa [Bounds, p.limits_mapReserve asset hpatch]
  | @revert id j journal =>
    rw [Bounds, limits_undoAll]
    exact h
  | _ => exact hplain trivial

theorem Bounds.after (h : m.Bounds p) (hsound : p.Sound) (hop : m.Permits op) : m.Bounds (p.after op) := by
  rcases after_cases op hsound.loansListed with ⟨a, heffect⟩ | hsame
  · exact h.effect hop heffect
  · rwa [hsame]

theorem Bounds.history {ops : List Op} (h : m.Bounds p) (hsound : p.Sound)
    (hops : ∀ op ∈ ops, m.Permits op) : m.Bounds (p.history ops) := by
  induction ops generalizing p with
  | nil => exact h
  | cons op ops ih =>
    obtain ⟨hop, hops⟩ := List.forall_mem_cons.mp hops
    exact ih (h.after hsound hop) (hsound.after op) hops

theorem Builds.bounds (h : m.Builds p) : m.Bounds p := by
  obtain ⟨feeBps, wrappedNative, ops, hops, rfl⟩ := h
  refine Bounds.history ?_ (sound_empty feeBps wrappedNative) hops
  intro x hx
  cases hx

theorem ltv_of_validate (hvalid : m.validate = .ok ()) (hbuilt : m.Builds p) {account : Address} {h : Holding}
    (hmem : h ∈ (p.snapshot account).holdings) : h.ltvBps < scale := by
  obtain ⟨r, hr, -, -, -, -, hltv, -⟩ := mem_holdings hmem
  obtain ⟨l, hl, heq⟩ := hbuilt.bounds _ (List.mem_map_of_mem hr)
  obtain ⟨heq, -⟩ := Prod.mk.inj heq
  rw [hltv, heq]
  obtain ⟨a, hadmits⟩ := (validate_ok hvalid).1 l hl
  exact hadmits.ltv

end

end Market

namespace Guard
open FixedPoint

section
variable {g : Guard} {borrowed : Bool} {s : Snapshot} {report : HealthReport}

theorem report_of_check (h : g.check borrowed s = .ok report)
    (hcollateral : (s.holdings.map fun h => (collateralValue h).toNat).sum < 2 ^ 256) :
    report.debt = totalDebt s ∧
      report.collateral.toNat = (s.holdings.map fun h => (collateralValue h).toNat).sum := by
  rw [check, assess_eq] at h
  cases hfactor : healthFactor (weighted (·.liquidationThresholdBps) s.holdings) (totalDebt s) with
  | error trap =>
    rw [hfactor] at h
    cases h
  | ok factor =>
    simp only [hfactor, Except.map] at h
    split at h
    · cases h
      refine ⟨rfl, ?_⟩
      rw [Word.toNat_sum (by rwa [List.map_map]), List.map_map]
      rfl
    · cases h

theorem weighted_le {hs : List Holding} {weight : Holding → Nat} {limit : Nat}
    (hweight : ∀ h ∈ hs, h.collateralEnabled → weight h ≤ limit) :
    (weighted weight hs).toNat ≤ (hs.map fun h => (collateralValue h).toNat).sum * limit := by
  have hvalue : ∀ h ∈ hs, (collateralValue h).toNat * (BitVec.ofNat 256 (weight h)).toNat ≤
      (collateralValue h).toNat * limit := by
    intro h hh
    by_cases henabled : h.collateralEnabled
    · refine Nat.mul_le_mul_left _ (le_trans ?_ (hweight h hh henabled))
      rw [BitVec.toNat_ofNat]
      exact Nat.mod_le _ _
    · have hzero : (0 : Word).toNat = 0 := rfl
      rw [collateralValue, if_neg henabled, hzero, Nat.zero_mul, Nat.zero_mul]
  refine (Word.holds_sum _).le.trans ?_
  rw [List.map_map, ← List.sum_map_mul_right]
  exact List.sum_le_sum fun h hh => (toNat_mul_le _ _).trans (hvalue h hh)

theorem debt_le_of_borrowed (hcheck : g.check true s = .ok report)
    (hltv : ∀ h ∈ s.holdings, h.ltvBps < scale)
    (hcollateral : (s.holdings.map fun h => (collateralValue h).toNat).sum < 2 ^ 256) :
    report.debt ≤ report.collateral := by
  obtain ⟨hdebt, htotal⟩ := report_of_check hcheck hcollateral
  rw [BitVec.le_def, hdebt, htotal]
  rcases check_ok hcheck with hzero | ⟨factor, -, hcapacity, -⟩
  · rw [hzero]
    exact Nat.zero_le _
  · have hbps : bps.toNat = scale := rfl
    have hwithin := BitVec.le_def.mp (hcapacity rfl)
    rw [BitVec.toNat_udiv, hbps] at hwithin
    have hweighted : (weighted (·.ltvBps) s.holdings).toNat ≤ _ * scale :=
      weighted_le fun h hh _ => (hltv h hh).le
    exact hwithin.trans (Nat.div_le_of_le_mul (by rwa [Nat.mul_comm] at hweighted))

theorem debt_le_of_floor (hcheck : g.check borrowed s = .ok report) (hfloor : wad ≤ g.floor)
    (hdebt : (totalDebt s).toNat * scale < 2 ^ 256)
    (hcollateral : (s.holdings.map fun h => (collateralValue h).toNat).sum < 2 ^ 256) (limit : Nat)
    (hlimit : ∀ h ∈ s.holdings, h.collateralEnabled → h.liquidationThresholdBps ≤ limit) :
    report.debt.toNat * scale ≤ report.collateral.toNat * limit := by
  obtain ⟨hreport, htotal⟩ := report_of_check hcheck hcollateral
  rw [hreport, htotal]
  by_cases hzero : totalDebt s = 0
  · rw [hzero]
    simp
  · obtain ⟨factor, hfactor, -, habove⟩ := (check_ok hcheck).resolve_left hzero
    have hpos : 0 < wad.toNat := by decide
    have hwad := floor_mul_le hzero hdebt hfactor (BitVec.le_trans hfloor habove)
    rw [Nat.mul_assoc, Nat.mul_comm wad.toNat] at hwad
    exact (Nat.le_of_mul_le_mul_right hwad hpos).trans (weighted_le hlimit)

/-- An accepted account of a valid market is solvent if it was judged after a borrow, or if none of its collateral
has a liquidation threshold above one. -/
theorem solvent_of_check {m : Market} (hvalid : m.validate = .ok ()) {p : Pool} (hbuilt : m.Builds p)
    (account : Address) (hfloor : wad ≤ g.floor)
    (hcollateral :
      ((p.snapshot account).holdings.map fun h => (collateralValue h).toNat).sum < 2 ^ 256)
    (hdebt : (totalDebt (p.snapshot account)).toNat * scale < 2 ^ 256)
    (hcheck : g.check borrowed (p.snapshot account) = .ok report) :
    ((borrowed ∨ ∀ h ∈ (p.snapshot account).holdings,
        h.collateralEnabled → h.liquidationThresholdBps ≤ scale) → report.debt ≤ report.collateral) ∧
      ∀ limit, (∀ h ∈ (p.snapshot account).holdings,
          h.collateralEnabled → h.liquidationThresholdBps ≤ limit) →
        report.debt.toNat * scale ≤ report.collateral.toNat * limit := by
  have hthresholds := debt_le_of_floor hcheck hfloor hdebt hcollateral
  refine ⟨?_, hthresholds⟩
  rintro (hborrowed | hlimit)
  · rw [hborrowed] at hcheck
    exact debt_le_of_borrowed hcheck (fun h hmem => m.ltv_of_validate hvalid hbuilt hmem) hcollateral
  · exact Nat.le_of_mul_le_mul_right (hthresholds scale hlimit) (by decide)

end

/-- A market of one reserve, whose liquidation threshold is twice the value of the collateral. -/
def steepMarket : Market where
  name := "steep"
  wrappedNative := "0x0000000000000000000000000000000000000001"
  listings := [{
    symbol := "A"
    address := "0x0000000000000000000000000000000000000001"
    decimals := 10
    ltvBps := 8000
    liquidationThresholdBps := 20000 }]

def steepReserve : Reserve :=
  { asset := ⟨1⟩, symbol := "A", decimals := 10, ltvBps := 8000, liquidationThresholdBps := 20000 }

/-- An account of that market supplies a thousand and borrows `amount`. -/
def steepOps (amount : Word) : List Pool.Op := [
  .list steepReserve,
  .supply ⟨1⟩ 1000,
  .deposit ⟨1⟩ 1000 ⟨7⟩,
  .borrow ⟨1⟩ amount ⟨7⟩ ⟨7⟩]

def steepPool (amount : Word) : Pool := Pool.history { feeBps := 9 } (steepOps amount)

theorem steepMarket_builds (amount : Word) : steepMarket.Builds (steepPool amount) := by
  refine ⟨9, .zero, steepOps amount, ?_, rfl⟩
  have hlisted : steepMarket.Lists steepReserve := ⟨_, List.mem_singleton_self _, by decide +kernel⟩
  simp [steepOps, Market.Permits, hlisted]

theorem solvent_of_check_steep : ∃ report,
    check {} true ((steepPool 700).snapshot ⟨7⟩) = .ok report ∧ report.debt ≤ report.collateral ∧
      report.debt.toNat * scale ≤ report.collateral.toNat * 20000 := by
  obtain ⟨report, hcheck⟩ : ∃ report, check {} true ((steepPool 700).snapshot ⟨7⟩) = .ok report :=
    ⟨⟨1000 * 10 ^ 8, 700 * 10 ^ 8, 800 * 10 ^ 8, BitVec.ofNat 256 (2 * 10 ^ 19 / 7)⟩, by decide +kernel⟩
  have h := solvent_of_check (m := steepMarket) (by decide +kernel) (steepMarket_builds 700) ⟨7⟩
    (by decide +kernel) (by decide +kernel) (by decide +kernel) hcheck
  exact ⟨report, hcheck, h.1 (.inl rfl), h.2 20000 (by decide +kernel)⟩

/-- Judged without a borrow, an account of that market passes with a debt above its collateral. -/
theorem insolvent_without_borrow :
    steepMarket.validate = .ok () ∧ steepMarket.Builds (steepPool 1500) ∧
      Exact ((steepPool 1500).snapshot ⟨7⟩).holdings ∧
      (((steepPool 1500).snapshot ⟨7⟩).holdings.map fun h => (collateralValue h).toNat).sum < 2 ^ 256 ∧
      ∃ report, check {} false ((steepPool 1500).snapshot ⟨7⟩) = .ok report ∧
        ¬ report.debt ≤ report.collateral := by
  refine ⟨by decide +kernel, steepMarket_builds 1500, by decide +kernel, by decide +kernel,
    ⟨1000 * 10 ^ 8, 1500 * 10 ^ 8, 800 * 10 ^ 8, BitVec.ofNat 256 (4 * 10 ^ 18 / 3)⟩, ?_⟩
  decide +kernel

end Guard
end Gearing
