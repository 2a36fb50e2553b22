import Gearing.Proofs.Guard.Order
import Gearing.Proofs.Pool.Flow
import Gearing.Proofs.Pool.Snapshot

/-!
What supplying does to a snapshot. A deposit that grows reads as no less collateral, whatever the indices round, and
a reserve that is new to the account shows up without debt, so the account is improved.
-/
namespace Gearing
open FixedPoint

/-- More is supplied under the same debt, and what counted as collateral still does. -/
structure Balance.Grows (b b' : Balance) : Prop where
  deposit : b.deposit ≤ b'.deposit
  debt : b'.debt = b.debt
  collateral : b.collateral → b'.collateral

theorem Balance.Grows.refl (b : Balance) : b.Grows b := ⟨BitVec.le_refl _, rfl, id⟩

namespace Pool
variable {operator account asset : Address} {p q : Pool} {r : Reserve} {f : Flow}

theorem Moves.grows (h : Moves operator account asset f p q) (howed : f.owed = 0) (c : Address) :
    (p.balance account c).Grows (q.balance account c) := by
  by_cases hc : asset = c
  · subst hc
    refine ⟨?_, BitVec.eq_of_toNat_eq ?_, h.collateral⟩
    · rw [BitVec.le_def, h.deposit]
      exact Nat.le_add_right _ _
    · rw [h.debt, howed, Nat.add_zero]
  · rw [h.balances account c fun heq => hc (Prod.mk.inj heq).2]
    exact .refl _

theorem debt_of_grows (hgrows : (p.balance account r.asset).Grows (q.balance account r.asset))
    (hnone : p.holding? account r = none) {h : Holding} (hsome : q.holding? account r = some h) :
    h.debt = 0 := by
  rw [holding?] at hnone hsome
  split at hnone
  · rename_i hempty
    split at hsome
    · cases hsome
    · cases hsome
      rw [totals, hgrows.debt, hempty.2]
      exact rayMul_zero _
  · cases hnone

theorem safer_of_grows (hgrows : (p.balance account r.asset).Grows (q.balance account r.asset))
    (hexact : q.ExactTotals account r) {h : Holding} (hsome : p.holding? account r = some h) :
    ∃ h', q.holding? account r = some h' ∧ Guard.Safer h h' := by
  rw [holding?] at hsome
  split at hsome
  · cases hsome
  rename_i hheld
  cases hsome
  have hheld' : ¬ ((q.balance account r.asset).deposit = 0 ∧ (q.balance account r.asset).debt = 0) := by
    rintro ⟨hdeposit, hdebt⟩
    have hle := hgrows.deposit
    rw [hdeposit] at hle
    exact hheld ⟨BitVec.le_zero_iff.mp hle, hgrows.debt ▸ hdebt⟩
  refine ⟨_, if_neg hheld', ?_⟩
  have hdebt : (q.totals account r).2 = (p.totals account r).2 := by
    rw [totals, totals, hgrows.debt]
  exact {
    asset := rfl
    price := rfl
    decimals := rfl
    ltvBps := rfl
    liquidationThresholdBps := rfl
    collateral := rayMul_mono hgrows.deposit hexact.1
    debt := BitVec.le_of_eq hdebt
    enabled := hgrows.collateral }

theorem Moves.snapshot_eq (h : Moves operator account asset f p q) :
    (q.snapshot account).holdings = p.reserves.filterMap (q.holding? account) := by
  obtain ⟨g, hreserves, -⟩ := h.reserves
  have hsame : q.snapshot account = ({ q with reserves := p.reserves } : Pool).snapshot account := by
    rw [← snapshot_mapLiquidity { q with reserves := p.reserves } asset g account]
    exact snapshot_congr (p := mapLiquidity { q with reserves := p.reserves } asset g) hreserves rfl account
  rw [hsame]
  rfl

theorem Moves.improves (h : Moves operator account asset f p q) (howed : f.owed = 0)
    (hexact : ∀ r ∈ q.reserves, q.ExactTotals account r) :
    Guard.Improves (p.snapshot account).holdings (q.snapshot account).holdings := by
  obtain ⟨g, hreserves, -⟩ := h.reserves
  have hread : ∀ r ∈ p.reserves, q.ExactTotals account r := by
    intro r hr
    have hmem : (if r.asset = asset then { r with liquidity := g r.liquidity } else r) ∈ q.reserves := by
      rw [hreserves]
      exact List.mem_map_of_mem hr
    have hown := hexact _ hmem
    split at hown <;> exact hown
  rw [h.snapshot_eq]
  refine .filterMap (fun r hr held hheld => ?_) (fun r _ held hnone hheld => ?_)
  · exact safer_of_grows (h.grows howed r.asset) (hread r hr) hheld
  · exact debt_of_grows (h.grows howed r.asset) hnone hheld

end Pool
end Gearing
