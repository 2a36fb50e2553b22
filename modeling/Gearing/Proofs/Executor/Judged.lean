import Gearing.Proofs.Executor.Feasible
import Gearing.Proofs.Guard
import Gearing.Proofs.Pool.Snapshot
import Gearing.Proofs.Schedule

/-!
What the guard of a run says. On indices of one the account owes what was borrowed and holds what was
supplied, so a run that borrows within the limit of what it supplies is passed, whatever the account holds
on other reserves.
-/
namespace Gearing
open Pool FixedPoint

section Covered
variable {operator account asset : Address} {p q : Pool} {r : Reserve} {f : Flow}

theorem totals_of_moves {l : Word} (hmoves : Moves operator account r.asset f p q) (hplain : r.Plain)
    (hread : q.ExactTotals account { r with liquidity := l }) :
    (q.totals account { r with liquidity := l }).1.toNat =
        (p.balance account r.asset).deposit.toNat + f.supplied ∧
      (q.totals account { r with liquidity := l }).2.toNat =
        (p.balance account r.asset).debt.toNat + f.owed := by
  obtain ⟨hdeposit, hborrowed⟩ := hread
  simp only [hplain.liquidityIndex, hplain.borrowIndex, totals] at hdeposit hborrowed ⊢
  rw [rayMul_ray hdeposit, rayMul_ray hborrowed]
  exact ⟨hmoves.deposit, hmoves.debt⟩

/-- What is owed now leaves room for what was owed before, so a total of nothing was a debt of nothing. -/
theorem debt_of_moves {l : Word} (hmoves : Moves operator account r.asset f p q) (hplain : r.Plain)
    (hread : q.ExactTotals account { r with liquidity := l }) (hdebt : (p.totals account r).2 = 0) :
    (p.balance account r.asset).debt = 0 := by
  have hborrowed := hread.2
  simp only [hplain.borrowIndex, hmoves.debt, Nat.add_mul] at hborrowed
  simp only [totals, hplain.borrowIndex] at hdebt
  rwa [rayMul_ray (by omega)] at hdebt

/-- Once an account without debt has supplied enough for what it borrowed, each of its holdings carries its
own debt: on the other reserves it still owes nothing. -/
theorem holdings_carry {g : Guard} (hmoves : Moves operator account asset f p q)
    (hnodup : p.assets.Nodup) (hr : p.reserve? asset = some r) (hplain : r.Plain)
    (hprice : ExactPrice r.price r.decimals) (hdebt : ∀ c ∈ p.reserves, (p.totals account c).2 = 0)
    (hcollateral : (q.balance account asset).collateral)
    (htotals : ∀ c ∈ q.reserves, q.ExactTotals account c)
    (hexact : Guard.Exact (q.snapshot account).holdings)
    (hlimit : f.owed * scale ≤ f.supplied * r.ltvBps)
    (hroom : g.floor.toNat * r.ltvBps ≤ wad.toNat * r.liquidationThresholdBps) :
    ∀ h ∈ (q.snapshot account).holdings, g.Carries h := by
  intro h hmem
  obtain ⟨c, hc, hsupplied, howed, hcost, hunits, hltv, hthreshold, henabled⟩ := mem_holdings hmem
  rcases hmoves.mem_reserves hnodup hr hc with ⟨l, rfl⟩ | ⟨hne, hold⟩
  · obtain rfl := asset_of_reserve? hr
    obtain ⟨henough, hborrowed⟩ := totals_of_moves hmoves hplain (htotals _ hc)
    rw [← hsupplied] at henough
    rw [← howed, debt_of_moves hmoves hplain (htotals _ hc) (hdebt r (mem_of_reserve? hr))] at hborrowed
    have hzero : (0 : Word).toNat = 0 := rfl
    have hflag : h.collateralEnabled := by rw [henabled]; exact hcollateral
    refine Guard.carries_of_amounts (by rw [hcost, hunits]; exact hprice) hflag
      (hexact.collateral h hmem hflag) (hexact.debt h hmem) (by rw [hltv, hthreshold]; exact hroom) ?_
    rw [hborrowed, hltv, hzero, Nat.zero_add]
    exact hlimit.trans (Nat.mul_le_mul_right _ (by omega))
  · have hother : q.balance account c.asset = p.balance account c.asset :=
      hmoves.balances account c.asset fun heq => hne (Prod.mk.inj heq).2.symm
    refine Guard.carries_of_debt_zero g ?_
    rw [howed, totals, hother]
    exact hdebt c hold

end Covered

namespace Executor
variable (x : Executor) (account asset : Address) (s : Schedule)

def judgedOps : List Op :=
  .checkpoint account :: .acquire asset s.totalBorrow account ::
    (roundOps x.operator account asset s.principal s.borrows ++
      [.deposit asset (lastTranche s.principal s.borrows) account])

/-- Nothing in the run of a schedule wraps: not what it carries out, not what its guard reads, and not how
the guard weighs it. -/
@[mk_iff]
structure ExactRun (p : Pool) : Prop where
  carried : p.Exact (wholeScript x account asset s p)
  totals : ∀ r ∈ (p.history (judgedOps x account asset s)).reserves,
    (p.history (judgedOps x account asset s)).ExactTotals account r
  guard : Guard.Exact ((p.history (judgedOps x account asset s)).snapshot account).holdings

instance (p : Pool) : Decidable (ExactRun x account asset s p) :=
  decidable_of_iff' _ (exactRun_iff x account asset s p)

variable {x account asset s} {p q : Pool} {r : Reserve}

theorem share_tranches {operator : Address} {each : Word} {borrows : List Word}
    (hr : p.reserve? asset = some r) (hplain : r.Plain)
    (h : p.Carried (roundOps operator account asset each borrows ++
      [.deposit asset (lastTranche each borrows) account]) q)
    (hexact : p.Exact (roundOps operator account asset each borrows ++
      [.deposit asset (lastTranche each borrows) account])) :
    ∀ a ∈ each :: borrows, share a ray = a := by
  intro a ha
  have hindexed : p.Indexed asset ray ray := ⟨r, hr, hplain.liquidityIndex, hplain.borrowIndex⟩
  exact rayMul_ray ((divides_tranches hindexed h hexact).1 a ha).2

theorem moves_judged_plain (hp : p.Sound) (hr : p.reserve? asset = some r) (hplain : r.Plain)
    (hexact : p.Exact (wholeScript x account asset s p))
    (hcarried : p.Carried (judgedOps x account asset s) q) :
    Moves x.operator account asset
        ({ paidOut := s.totalBorrow.toNat } +
          trancheFlow x.operator account BitVec.toNat BitVec.toNat s.principal s.borrows)
        (p.openJournal account) q ∧
      (q.balance account asset).collateral := by
  obtain ⟨hclosed, hcarried⟩ := hcarried.opened
  rcases hcarried with _ | ⟨hacquire, htranches⟩
  obtain ⟨hmoves, hcollateral, -⟩ := moves_judged hp hclosed hr hacquire htranches hexact
  have hr₀ : (p.openJournal account).reserve? asset = some r := hr
  obtain ⟨l, hr₁, -⟩ := (hacquire.moves_acquire x.operator).reserve? hr₀
  obtain ⟨-, hexact₁⟩ := exact_wholeScript hclosed hexact
  rw [after_of_effect hacquire, List.append_cons, exact_append] at hexact₁
  have hshare := share_tranches hr₁ (hplain.of_liquidity l) htranches hexact₁.1
  refine ⟨hmoves.cast (congrArg _ ?_), hcollateral⟩
  rw [hplain.liquidityIndex, hplain.borrowIndex]
  have hmap : ∀ as : List Word, (∀ a ∈ as, a ∈ s.principal :: s.borrows) →
      as.map (fun a => (share a ray).toNat) = as.map BitVec.toNat :=
    fun as has => List.map_congr_left fun a ha => by rw [hshare a (has a ha)]
  rw [trancheFlow, trancheFlow, hmap _ fun _ ha => ha, hmap _ fun _ ha => List.mem_cons_of_mem _ ha]

theorem exists_check_judged (borrowed : Bool) (hp : p.Sound) (hr : p.reserve? asset = some r)
    (hplain : r.Plain) (hprice : ExactPrice r.price r.decimals)
    (hdebt : ∀ c ∈ p.reserves, (p.totals account c).2 = 0)
    (hlimit : scale * (s.borrows.map BitVec.toNat).sum ≤
      r.ltvBps * (s.principal.toNat + (s.borrows.map BitVec.toNat).sum))
    (hroom : x.guard.floor.toNat * r.ltvBps ≤ wad.toNat * r.liquidationThresholdBps)
    (hexact : ExactRun x account asset s p) (hcarried : p.Carried (judgedOps x account asset s) q) :
    ∃ report, x.guard.check borrowed (q.snapshot account) = .ok report := by
  have hread := hexact.totals
  have hguard := hexact.guard
  rw [hcarried.history_eq] at hread hguard
  obtain ⟨hmoves, hcollateral⟩ := moves_judged_plain hp hr hplain hexact.carried hcarried
  refine Guard.check_of_carries borrowed hguard
    (holdings_carry hmoves hp.assets hr hplain hprice hdebt hcollateral hread hguard ?_ hroom)
  simp only [Flow.add_owed, Flow.add_supplied, trancheFlow, Nat.zero_add, List.map_cons, List.sum_cons]
  rw [Nat.mul_comm _ scale, Nat.mul_comm _ r.ltvBps]
  exact hlimit

end Executor

end Gearing
