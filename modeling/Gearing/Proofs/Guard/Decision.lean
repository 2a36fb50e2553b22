import Gearing.Proofs.Verdict

/-!
The guard as a decision about whole numbers. Where nothing wraps its verdict is the inequality between the debt
and the weighted collateral itself: neither the division of the capacity nor the one of the health factor moves the
boundary. It adds up over the holdings, so their order does not matter, wrapped or not.
-/
namespace Gearing.Guard
open FixedPoint

section Sums
variable {hs : List Holding}

theorem toNat_collateralValue {h : Holding} (hdecimals : h.decimals ≤ 87)
    (hexact : h.collateralEnabled → ExactValue h.collateral h.price h.decimals) :
    (collateralValue h).toNat =
      if h.collateralEnabled then worth h.collateral.toNat h.price.toNat h.decimals else 0 := by
  unfold collateralValue
  split
  · rename_i henabled
    exact toNat_value_eq_worth hdecimals (hexact henabled)
  · rfl

theorem sum_debtValue (hexact : Exact hs) (hdecimals : ∀ h ∈ hs, h.decimals ≤ 87) :
    (hs.map fun h => (debtValue h).toNat).sum = owed hs := by
  rw [owed]
  congr 1
  exact List.map_congr_left fun h hh => toNat_value_eq_worth (hdecimals h hh) (hexact.debt h hh)

theorem sum_collateralValue (weight : Holding → Nat) (hexact : Exact hs)
    (hdecimals : ∀ h ∈ hs, h.decimals ≤ 87) :
    (hs.map fun h => (collateralValue h).toNat * weight h).sum = backing weight hs := by
  rw [backing]
  congr 1
  refine List.map_congr_left fun h hh => ?_
  rw [toNat_collateralValue (hdecimals h hh) (hexact.collateral h hh), ite_mul, Nat.zero_mul]

theorem passes_iff {g : Guard} {borrowed : Bool} (hexact : Exact hs)
    (hdecimals : ∀ h ∈ hs, h.decimals ≤ 87) :
    g.Passes borrowed hs ↔ owed hs = 0 ∨
      (borrowed → owed hs * scale ≤ backing (·.ltvBps) hs) ∧
        g.floor.toNat * owed hs * scale ≤ backing (·.liquidationThresholdBps) hs * wad.toNat := by
  rw [Passes, sum_debtValue hexact hdecimals, sum_collateralValue _ hexact hdecimals,
    sum_collateralValue _ hexact hdecimals, Nat.mul_assoc]

end Sums

section Order
variable {s s' : Snapshot}

theorem weighted_perm (weight : Holding → Nat) (h : s'.holdings.Perm s.holdings) :
    weighted weight s'.holdings = weighted weight s.holdings :=
  Word.sum_perm (h.map _)

theorem assess_perm (h : s'.holdings.Perm s.holdings) : assess s' = assess s := by
  rw [assess, assess, weighted_perm _ h, weighted_perm _ h, Word.sum_perm (h.map debtValue),
    Word.sum_perm (h.map collateralValue)]

end Order

/-- Where nothing wraps the guard passes an account exactly when its debt is within the floor and, after a borrow,
within the capacity, both compared in whole numbers, and it refuses every other one. Report and verdict are those of
the same holdings in any other order. -/
theorem check_decides (g : Guard) (borrowed : Bool) (s : Snapshot) :
    (Exact s.holdings → (∀ h ∈ s.holdings, h.decimals ≤ 87) →
      ((∃ report, g.check borrowed s = .ok report) ↔ owed s.holdings = 0 ∨
        (borrowed → owed s.holdings * scale ≤ backing (·.ltvBps) s.holdings) ∧
          g.floor.toNat * owed s.holdings * scale ≤
            backing (·.liquidationThresholdBps) s.holdings * wad.toNat) ∧
      ((¬ ∃ report, g.check borrowed s = .ok report) → ∃ debt capacity factor, g.check borrowed s =
        .error (.refused (.insufficientCollateral debt capacity factor g.floor)))) ∧
    ∀ s' : Snapshot, s'.holdings.Perm s.holdings →
      assess s' = assess s ∧ g.check borrowed s' = g.check borrowed s := by
  refine ⟨fun hexact hdecimals => ?_, fun s' hperm => ⟨assess_perm hperm, ?_⟩⟩
  · obtain ⟨hpass, hrefuse⟩ := check_exact g borrowed hexact
    have hverdict : (∃ report, g.check borrowed s = .ok report) ↔ g.Passes borrowed s.holdings := by
      refine ⟨?_, hpass⟩
      rintro ⟨report, hreport⟩
      by_contra hfails
      obtain ⟨debt, capacity, factor, hrefused⟩ := hrefuse hfails
      rw [hreport] at hrefused
      cases hrefused
    rw [← passes_iff hexact hdecimals]
    exact ⟨hverdict, fun hnone => hrefuse fun hpasses => hnone (hverdict.mpr hpasses)⟩
  · rw [check, check, assess_perm hperm]

/-- A holding of a token with 18 decimals at a price of one, which is valued at its amount. -/
def unitHolding (collateral debt : Word) : Holding :=
  { asset := ⟨1⟩, collateral, debt, price := BitVec.ofNat 256 (10 ^ 8), decimals := 18, ltvBps := 8000,
    liquidationThresholdBps := 8500 }

/-- Five units of collateral in three parts, each of which alone would be rounded down, a debt of four, which is all
that they allow, and collateral that does not count. -/
def splitSnapshot : Snapshot :=
  ⟨⟨7⟩, [unitHolding 1 0, unitHolding 0 4, unitHolding 1 0,
    { unitHolding 1000 0 with collateralEnabled := false }, unitHolding 3 0]⟩

theorem check_decides_split :
    owed splitSnapshot.holdings = 4 ∧ backing (·.ltvBps) splitSnapshot.holdings = 4 * scale ∧
    (∃ report, check {} true splitSnapshot = .ok report) ∧
    check {} true ⟨⟨8⟩, splitSnapshot.holdings.reverse⟩ = check {} true splitSnapshot := by
  have hexact : Exact splitSnapshot.holdings := by decide +kernel
  obtain ⟨hdecides, hperm⟩ := check_decides {} true splitSnapshot
  refine ⟨by decide +kernel, by decide +kernel, ?_, (hperm ⟨⟨8⟩, _⟩ (List.reverse_perm _)).2⟩
  exact (hdecides hexact (by decide +kernel)).1.mpr
    (.inr ⟨fun _ => by decide +kernel, by decide +kernel⟩)

end Gearing.Guard
