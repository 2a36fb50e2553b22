import Gearing.Proofs.Verdict

/-!
More collateral and less debt never hurt. Holding by holding the values are monotone in the amounts, so of an
improved account the weighted collateral is no less and the debt is no more, and the guard passes it where it
passed the account before.
-/
namespace Gearing.Guard
open FixedPoint

/-- A holding of the same reserve with no less collateral and no more debt. -/
structure Safer (h h' : Holding) : Prop where
  asset : h'.asset = h.asset
  price : h'.price = h.price
  decimals : h'.decimals = h.decimals
  ltvBps : h'.ltvBps = h.ltvBps
  liquidationThresholdBps : h'.liquidationThresholdBps = h.liquidationThresholdBps
  collateral : h.collateral ≤ h'.collateral
  debt : h'.debt ≤ h.debt
  enabled : h.collateralEnabled → h'.collateralEnabled

/-- Each holding has become safer, and what is new has no debt; the order does not matter. -/
inductive Improves : List Holding → List Holding → Prop
  | nil : Improves [] []
  | safer {h h' : Holding} {hs hs' : List Holding} (head : Safer h h') (tail : Improves hs hs') :
    Improves (h :: hs) (h' :: hs')
  | further {h : Holding} {hs hs' : List Holding} (head : h.debt = 0) (tail : Improves hs hs') :
    Improves hs (h :: hs')
  | perm {hs hs' hs'' : List Holding} (improves : Improves hs hs') (order : hs'.Perm hs'') :
    Improves hs hs''

section Values
variable {h h' : Holding}

theorem Safer.collateralValue_le (hsafer : Safer h h')
    (hexact : h'.collateralEnabled → ExactValue h'.collateral h'.price h'.decimals) :
    (collateralValue h).toNat ≤ (collateralValue h').toNat := by
  unfold collateralValue
  split
  · rename_i henabled
    have henabled' := hsafer.enabled henabled
    rw [if_pos henabled', ← hsafer.price, ← hsafer.decimals]
    exact toNat_value_mono hsafer.collateral (hexact henabled')
  · exact Nat.zero_le _

theorem Safer.debtValue_le (hsafer : Safer h h') (hexact : ExactValue h.debt h.price h.decimals) :
    (debtValue h').toNat ≤ (debtValue h).toNat := by
  rw [debtValue, debtValue, hsafer.price, hsafer.decimals]
  exact toNat_value_mono hsafer.debt hexact

end Values

namespace Improves
variable {hs hs' : List Holding}

theorem sum_collateral_le (himproves : Improves hs hs') {weight : Holding → Nat}
    (hweight : ∀ h h', Safer h h' → weight h' = weight h)
    (hexact : ∀ h ∈ hs', h.collateralEnabled → ExactValue h.collateral h.price h.decimals) :
    (hs.map fun h => (collateralValue h).toNat * weight h).sum ≤
      (hs'.map fun h => (collateralValue h).toNat * weight h).sum := by
  induction himproves with
  | nil => exact Nat.le_refl _
  | @safer h h' hs hs' head tail ih =>
    obtain ⟨hhead, htail⟩ := List.forall_mem_cons.mp hexact
    simp only [List.map_cons, List.sum_cons]
    rw [hweight h h' head]
    exact Nat.add_le_add (Nat.mul_le_mul_right _ (head.collateralValue_le hhead)) (ih htail)
  | further head tail ih =>
    obtain ⟨-, htail⟩ := List.forall_mem_cons.mp hexact
    simp only [List.map_cons, List.sum_cons]
    exact (ih htail).trans (Nat.le_add_left _ _)
  | perm improves order ih =>
    rw [← (order.map _).sum_nat]
    exact ih fun h hh => hexact h (order.mem_iff.mp hh)

theorem sum_debt_le (himproves : Improves hs hs')
    (hexact : ∀ h ∈ hs, ExactValue h.debt h.price h.decimals) :
    (hs'.map fun h => (debtValue h).toNat).sum ≤ (hs.map fun h => (debtValue h).toNat).sum := by
  induction himproves with
  | nil => exact Nat.le_refl _
  | safer head tail ih =>
    obtain ⟨hhead, htail⟩ := List.forall_mem_cons.mp hexact
    simp only [List.map_cons, List.sum_cons]
    exact Nat.add_le_add (head.debtValue_le hhead) (ih htail)
  | further head tail ih =>
    have hzero : (0 : Word).toNat = 0 := rfl
    rw [List.map_cons, List.sum_cons, debtValue_of_debt_zero head, hzero, Nat.zero_add]
    exact ih hexact
  | perm improves order ih =>
    rw [← (order.map _).sum_nat]
    exact ih hexact

theorem filterMap {α : Type} {f f' : α → Option Holding} {as : List α}
    (hheld : ∀ a ∈ as, ∀ h, f a = some h → ∃ h', f' a = some h' ∧ Safer h h')
    (hfurther : ∀ a ∈ as, ∀ h', f a = none → f' a = some h' → h'.debt = 0) :
    Improves (as.filterMap f) (as.filterMap f') := by
  induction as with
  | nil => exact .nil
  | cons a as ih =>
    obtain ⟨hhead, htail⟩ := List.forall_mem_cons.mp hheld
    obtain ⟨hnew, hnews⟩ := List.forall_mem_cons.mp hfurther
    have hrest := ih htail hnews
    cases hf : f a with
    | some h =>
      obtain ⟨h', hf', hsafer⟩ := hhead h hf
      rw [List.filterMap_cons_some hf, List.filterMap_cons_some hf']
      exact .safer hsafer hrest
    | none =>
      rw [List.filterMap_cons_none hf]
      cases hf' : f' a with
      | none =>
        rw [List.filterMap_cons_none hf']
        exact hrest
      | some h' =>
        rw [List.filterMap_cons_some hf']
        exact .further (hnew h' hf hf') hrest

end Improves

section Reports
variable {s s' : Snapshot}

theorem healthFactor_of_debt_zero {report : HealthReport} (hassess : assess s = .ok report)
    (hdebt : report.debt = 0) : report.healthFactor = Word.greatest := by
  rw [assess_eq] at hassess
  cases hfactor : FixedPoint.healthFactor (weighted (·.liquidationThresholdBps) s.holdings) (totalDebt s) with
  | error trap =>
    rw [hfactor] at hassess
    cases hassess
  | ok factor =>
    rw [hfactor] at hassess
    cases hassess
    rw [FixedPoint.healthFactor, if_pos hdebt] at hfactor
    exact (Except.ok.inj hfactor).symm

/-- An improved account is no worse by any figure of the report: the factor is a quotient whose two sides move
apart, or there is no debt left to divide by. -/
theorem assess_mono (himproves : Improves s.holdings s'.holdings) (hexact : Exact s.holdings)
    (hexact' : Exact s'.holdings) :
    ∃ report report', assess s = .ok report ∧ assess s' = .ok report' ∧ report'.debt ≤ report.debt ∧
      report.capacity ≤ report'.capacity ∧ report.healthFactor ≤ report'.healthFactor := by
  obtain ⟨report, hassess, hdebt, hcapacity, hfactor⟩ := assess_exact hexact
  obtain ⟨report', hassess', hdebt', hcapacity', hfactor'⟩ := assess_exact hexact'
  have howed := himproves.sum_debt_le hexact.debt
  have hlimit := himproves.sum_collateral_le (fun _ _ h => h.ltvBps) hexact'.collateral
  have hthreshold :=
    himproves.sum_collateral_le (fun _ _ h => h.liquidationThresholdBps) hexact'.collateral
  have hless : report'.debt ≤ report.debt := by
    rw [BitVec.le_def, hdebt, hdebt']
    exact howed
  refine ⟨report, report', hassess, hassess', hless, ?_, ?_⟩
  · rw [BitVec.le_def, hcapacity, hcapacity']
    exact Nat.div_le_div_right hlimit
  · by_cases hnone : report'.debt = 0
    · rw [healthFactor_of_debt_zero hassess' hnone]
      exact Word.le_greatest _
    · have hsome : report.debt ≠ 0 := by
        intro hzero
        rw [hzero] at hless
        exact hnone (BitVec.le_zero_iff.mp hless)
      have hpos : 0 < report'.debt.toNat := Nat.pos_of_ne_zero fun h => hnone (BitVec.eq_of_toNat_eq h)
      rw [hdebt'] at hpos
      rw [BitVec.le_def, hfactor hsome, hfactor' hnone]
      exact Nat.div_le_div (Nat.mul_le_mul_right _ hthreshold) (Nat.mul_le_mul_right _ howed)
        (Nat.mul_pos hpos (by decide)).ne'

theorem accepts_mono {g : Guard} {borrowed : Bool} {report report' : HealthReport}
    (hdebt : report'.debt ≤ report.debt) (hcapacity : report.capacity ≤ report'.capacity)
    (hfactor : report.healthFactor ≤ report'.healthFactor) (haccepts : g.accepts borrowed report) :
    g.accepts borrowed report' := by
  rcases accepts_iff.mp haccepts with hzero | ⟨hwithin, hfloor⟩
  · rw [hzero] at hdebt
    exact accepts_iff.mpr (.inl (BitVec.le_zero_iff.mp hdebt))
  · exact accepts_iff.mpr (.inr ⟨fun hborrowed =>
      BitVec.le_trans (BitVec.le_trans hdebt (hwithin hborrowed)) hcapacity, BitVec.le_trans hfloor hfactor⟩)

theorem check_mono (g : Guard) (borrowed : Bool) (himproves : Improves s.holdings s'.holdings)
    (hexact : Exact s.holdings) (hexact' : Exact s'.holdings)
    (hpasses : ∃ report, g.check borrowed s = .ok report) : ∃ report, g.check borrowed s' = .ok report := by
  obtain ⟨report, report', hassess, hassess', hdebt, hcapacity, hfactor⟩ :=
    assess_mono himproves hexact hexact'
  obtain ⟨_, hcheck⟩ := hpasses
  simp only [check, hassess] at hcheck
  split at hcheck
  · rename_i haccepts
    exact ⟨report', by simp only [check, hassess', if_pos (accepts_mono hdebt hcapacity hfactor haccepts)]⟩
  · cases hcheck

end Reports

end Gearing.Guard
