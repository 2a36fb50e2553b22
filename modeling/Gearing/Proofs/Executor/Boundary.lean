import Gearing.Proofs.Executor.Solved

/-!
Where a single loop stops being accepted. A new account holds what the run supplied and owes what it borrowed,
on one reserve, and at an exact price both are valued by multiples of one base unit. So the guard compares
amounts, and the closed formula for the largest borrow is the same comparison.
-/
namespace Gearing.Executor
open Gearing.Action Pool FixedPoint
variable {x : Executor} {account asset : Address} {s : Schedule} {p q : Pool} {r : Reserve}
  {principal borrow : Word}

/-- An account without balances and without an open checkpoint, and a reserve that can be looped and on
which no value is truncated. -/
structure Newcomer (account asset : Address) (r : Reserve) (p : Pool) : Prop where
  reachable : p.Reachable
  closed : p.opened.get? account = none
  empty : ∀ c, (p.balance account c).deposit = 0 ∧ (p.balance account c).debt = 0
  listed : p.reserve? asset = some r
  plain : r.Plain
  price : r.price ≠ 0
  valued : ExactPrice r.price r.decimals
  ltv : r.ltvBps < scale
  threshold : r.ltvBps ≤ r.liquidationThresholdBps

section Judged

theorem Newcomer.debtFree (h : Newcomer account asset r p) (c : Reserve) :
    (p.totals account c).2 = 0 := by
  rw [totals, (h.empty c.asset).2]
  exact rayMul_zero c.borrowIndex

theorem holdings_judged (hnew : Newcomer account asset r p) (hprincipal : s.principal ≠ 0)
    (hexact : ExactRun x account asset s p) (hcarried : p.Carried (judgedOps x account asset s) q) :
    ∃ h : Holding, (q.snapshot account).holdings = [h] ∧
      h.collateral.toNat = s.principal.toNat + (s.borrows.map BitVec.toNat).sum ∧
      h.debt.toNat = (s.borrows.map BitVec.toNat).sum ∧ h.price = r.price ∧ h.decimals = r.decimals ∧
      h.ltvBps = r.ltvBps ∧ h.collateralEnabled := by
  have hp := hnew.reachable.sound
  have hread := hexact.totals
  rw [hcarried.history_eq] at hread
  obtain ⟨hmoves, hcollateral⟩ := moves_judged_plain hp hnew.listed hnew.plain hexact.carried hcarried
  obtain ⟨l, hq, -⟩ := hmoves.reserve? (s := r) hnew.listed
  obtain rfl := asset_of_reserve? hnew.listed
  obtain ⟨hsupplied, howed⟩ := totals_of_moves hmoves hnew.plain (hread _ (mem_of_reserve? hq))
  have halone : ∀ c, r.asset ≠ c →
      (q.balance account c).deposit = 0 ∧ (q.balance account c).debt = 0 := by
    intro c hne
    rw [hmoves.balances account c fun heq => hne (Prod.mk.inj heq).2]
    exact hnew.empty c
  have hnone : ((p.openJournal account).balance account r.asset).deposit.toNat = 0 ∧
      ((p.openJournal account).balance account r.asset).debt.toNat = 0 := by
    obtain ⟨hdeposit, hdebt⟩ := hnew.empty r.asset
    exact ⟨congrArg BitVec.toNat hdeposit, congrArg BitVec.toNat hdebt⟩
  simp only [hnone, Flow.add_supplied, Flow.add_owed, trancheFlow, Nat.zero_add, List.map_cons,
    List.sum_cons] at hsupplied howed
  have hheld : ¬ ((q.balance account r.asset).deposit = 0 ∧ (q.balance account r.asset).debt = 0) := by
    rintro ⟨hzero, -⟩
    have hnat : (0 : Word).toNat = 0 := rfl
    have hdeposit := hmoves.deposit
    simp only [hnone, hzero, hnat, Flow.add_supplied, trancheFlow, List.map_cons, List.sum_cons] at hdeposit
    refine hprincipal (BitVec.eq_of_toNat_eq ?_)
    rw [hnat]
    omega
  rw [holdings_of_alone (hcarried.sound hp).assets hq halone, holding?, if_neg hheld]
  exact ⟨_, rfl, hsupplied, howed, rfl, rfl, rfl, hcollateral⟩

theorem values_judged (hnew : Newcomer account asset r p) (hprincipal : s.principal ≠ 0)
    (hexact : ExactRun x account asset s p) (hcarried : p.Carried (judgedOps x account asset s) q) :
    ∃ (h : Holding) (unit : Nat), 0 < unit ∧ (q.snapshot account).holdings = [h] ∧ h.ltvBps = r.ltvBps ∧
      (Guard.collateralValue h).toNat =
        (s.principal.toNat + (s.borrows.map BitVec.toNat).sum) * unit ∧
      (Guard.debtValue h).toNat = (s.borrows.map BitVec.toNat).sum * unit := by
  have hguard := hexact.guard
  rw [hcarried.history_eq] at hguard
  obtain ⟨h, hheld, hcollateral, hdebt, hcost, hunits, hltv, henabled⟩ :=
    holdings_judged hnew hprincipal hexact hcarried
  have hmem : h ∈ (q.snapshot account).holdings := by
    rw [hheld]
    exact List.mem_singleton_self h
  have hvalued : ExactPrice h.price h.decimals := by
    rw [hcost, hunits]
    exact hnew.valued
  have hprice : h.price ≠ 0 := by
    rw [hcost]
    exact hnew.price
  refine ⟨h, worth 1 h.price.toNat h.decimals, hvalued.worth_one_pos hprice, hheld, hltv, ?_, ?_⟩
  · rw [Guard.collateralValue, if_pos henabled,
      toNat_value_eq_mul hvalued (hguard.collateral h hmem henabled), hcollateral]
  · rw [Guard.debtValue, toNat_value_eq_mul hvalued (hguard.debt h hmem), hdebt]

theorem exists_refusal_judged (hnew : Newcomer account asset r p) (hprincipal : s.principal ≠ 0)
    (hbeyond : r.ltvBps * (s.principal.toNat + (s.borrows.map BitVec.toNat).sum) <
      (s.borrows.map BitVec.toNat).sum * scale)
    (hexact : ExactRun x account asset s p) (hcarried : p.Carried (judgedOps x account asset s) q) :
    ∃ debt capacity factor, x.guard.check true (q.snapshot account) =
      .error (.refused (.insufficientCollateral debt capacity factor x.guard.floor)) := by
  have hguard := hexact.guard
  rw [hcarried.history_eq] at hguard
  obtain ⟨h, unit, hunit, hheld, hltv, hcollateral, hdebt⟩ :=
    values_judged hnew hprincipal hexact hcarried
  refine Guard.check_refuses x.guard hguard ?_
  simp only [hheld, List.map_cons, List.map_nil, List.sum_cons, List.sum_nil, Nat.add_zero, hltv,
    hcollateral, hdebt]
  generalize (s.borrows.map BitVec.toNat).sum = borrowed at hbeyond
  calc (s.principal.toNat + borrowed) * unit * r.ltvBps
      = r.ltvBps * (s.principal.toNat + borrowed) * unit := by ring
    _ < borrowed * scale * unit := Nat.mul_lt_mul_of_pos_right hbeyond hunit
    _ = borrowed * unit * scale := Nat.mul_right_comm ..

/-- The guard weighs the principal among the rest, so weighing it alone does not wrap. -/
theorem weighted_principal_exact (hnew : Newcomer account asset r p) (hprincipal : s.principal ≠ 0)
    (hexact : ExactRun x account asset s p) (hcarried : p.Carried (judgedOps x account asset s) q) :
    s.principal.toNat * r.ltvBps < 2 ^ 256 := by
  have hguard := hexact.guard
  rw [hcarried.history_eq] at hguard
  obtain ⟨h, unit, hunit, hheld, hltv, hcollateral, -⟩ :=
    values_judged hnew hprincipal hexact hcarried
  have hcapacity := hguard.capacity
  simp only [hheld, List.map_cons, List.map_nil, List.sum_cons, List.sum_nil, Nat.add_zero, hltv,
    hcollateral] at hcapacity
  refine (Nat.mul_le_mul_right r.ltvBps ?_).trans_lt hcapacity
  exact (Nat.le_add_right _ _).trans (Nat.le_mul_of_pos_right _ hunit)

end Judged

section Single

theorem totalBorrow_single (principal borrow : Word) :
    (Schedule.single principal borrow).totalBorrow = borrow := BitVec.zero_add borrow

theorem sum_borrows_single (principal borrow : Word) :
    ((Schedule.single principal borrow).borrows.map BitVec.toNat).sum = borrow.toNat := rfl

theorem loopCount_single (principal borrow : Word) : (Schedule.single principal borrow).loopCount = 1 := rfl

/-- Of a liquidity of twice the borrow one half is the flash liquidity and the other one is there to be
lent, so the principal need not cover the borrow. -/
theorem exists_unhindered (hnew : Newcomer account asset r p) (hloops : 1 ≤ x.bounds.maxLoopCount)
    (hprincipal : principal ≠ 0) (hliquid : 2 * borrow.toNat ≤ r.liquidity.toNat)
    (hallowed : account ≠ x.operator → borrow ≤ p.allowance account x.operator asset)
    (hexact : p.Exact (wholeScript x account asset (.single principal borrow) p)) :
    ∃ q, Unhindered x account asset (.single principal borrow) p q := by
  have hp := hnew.reachable.sound
  have htotal := totalBorrow_single principal borrow
  have hlent : (Schedule.single principal borrow).totalBorrow ≤ r.liquidity := by
    rw [htotal, BitVec.le_def]
    omega
  obtain ⟨q, hcarried⟩ : ∃ q, p.Carried (wholeScript x account asset (.single principal borrow) p) q := by
    refine exists_carried_of_tranches hnew.closed hnew.listed hnew.plain.usable hlent fun a p₁ hacquire => ?_
    have hmoves := hacquire.moves_acquire x.operator
    obtain ⟨l, hr₁, hl⟩ := hmoves.reserve? (s := r) hnew.listed
    have hspared : (p₁.allowance account x.operator asset).toNat =
        (p.allowance account x.operator asset).toNat := hmoves.allowance
    simp only [htotal] at hl
    refine exists_carried_single hr₁ (hnew.plain.usable.of_liquidity l) ?_ (fun hne => ?_)
      (exact_tranches hnew.closed hacquire hexact)
    · show borrow.toNat ≤ l.toNat + principal.toNat
      omega
    · rw [BitVec.le_def, hspared]
      exact BitVec.le_def.mp (hallowed hne)
  have hreturned := liquidity_exact hp hnew.listed (by rw [htotal, sum_borrows_single]) hexact hcarried
  have hborrowable : ∃ c, p.reserve? asset = some c ∧ c.active ∧ c.borrowingEnabled :=
    ⟨r, hnew.listed, hnew.plain.active, hnew.plain.enabled⟩
  refine ⟨q, ⟨hborrowable, hprincipal, hloops, ?_⟩, by rw [loopCount_single]; decide, hcarried, ?_, ?_⟩
  · rw [htotal]
    exact hallowed
  · rw [htotal] at hreturned ⊢
    omega
  · intro a ha
    obtain rfl := List.mem_singleton.mp ha
    rw [htotal] at hreturned ⊢
    omega

section Verdicts
variable {v : Venue}

theorem runSingle_settles (hnew : Newcomer account asset r v.pool) (hready : v.Ready v.pool)
    (hguard : x.guard = {}) (hexact : ExactRun x account asset (.single principal borrow) v.pool)
    (hrun : Unhindered x account asset (.single principal borrow) v.pool q)
    (hwithin : borrow.toNat * scale ≤ r.ltvBps * (principal.toNat + borrow.toNat)) :
    ∃ receipt w, runSingle x account asset principal borrow v = .ok receipt w := by
  have hlimit : scale * ((Schedule.single principal borrow).borrows.map BitVec.toNat).sum ≤
      r.ltvBps * ((Schedule.single principal borrow).principal.toNat +
        ((Schedule.single principal borrow).borrows.map BitVec.toNat).sum) := by
    rw [sum_borrows_single, Nat.mul_comm scale]
    exact hwithin
  have hroom : x.guard.floor.toNat * r.ltvBps ≤ wad.toNat * r.liquidationThresholdBps := by
    rw [hguard]
    exact room_of_default hnew.threshold
  have hgoes := runSchedule_goes none hready hrun fun p₂ hjudged => exists_check_judged _
    hnew.reachable.sound hnew.listed hnew.plain hnew.valued (fun c _ => hnew.debtFree c) hlimit hroom
    hexact hjudged
  cases hended : runSingle x account asset principal borrow v with
  | ok receipt w => exact ⟨receipt, w, rfl⟩
  | error e w => exact (hgoes.of_error hended).elim

theorem runSingle_refused (hnew : Newcomer account asset r v.pool) (hready : v.Ready v.pool)
    (hguard : x.guard = {}) (hexact : ExactRun x account asset (.single principal borrow) v.pool)
    (hrun : Unhindered x account asset (.single principal borrow) v.pool q)
    (hbeyond : r.ltvBps * (principal.toNat + borrow.toNat) < borrow.toNat * scale) :
    ∃ debt capacity factor w, runSingle x account asset principal borrow v =
      .error (.refused (.insufficientCollateral debt capacity factor wad)) w := by
  have hborrowed : ((Schedule.single principal borrow).totalBorrow != 0) = true := by
    rw [totalBorrow_single, bne_iff_ne]
    rintro rfl
    simp at hbeyond
  obtain ⟨p₂, hjudged⟩ := hrun.judged
  obtain ⟨debt, capacity, factor, hcheck⟩ := exists_refusal_judged hnew hrun.admits.principal
    (by rw [sum_borrows_single]; exact hbeyond) hexact hjudged
  rw [← hborrowed] at hcheck
  have hends := runSchedule_refused none hready hnew.reachable.sound hrun hjudged hcheck
  refine ⟨debt, capacity, factor, ?_⟩
  cases hended : runSingle x account asset principal borrow v with
  | ok receipt w => exact (hends.of_ok hended).elim
  | error e w =>
    obtain rfl := hends.of_error hended
    rw [hguard]
    exact ⟨w, rfl⟩

/-- The closed formula is where the guard changes its verdict: up to it a single loop of a new account
settles, and past it the account is refused for its collateral. -/
theorem runSingle_boundary (hnew : Newcomer account asset r v.pool) (hready : v.Ready v.pool)
    (hguard : x.guard = {}) (hloops : 1 ≤ x.bounds.maxLoopCount) (hprincipal : principal ≠ 0)
    (hliquid : 2 * borrow.toNat ≤ r.liquidity.toNat)
    (hallowed : account ≠ x.operator → borrow ≤ v.pool.allowance account x.operator asset)
    (hexact : ExactRun x account asset (.single principal borrow) v.pool) :
    ∃ m, Guard.maxSingleBorrow principal r.ltvBps = .ok m ∧
      ((∃ receipt w, runSingle x account asset principal borrow v = .ok receipt w) ↔ borrow ≤ m) ∧
      (¬ borrow ≤ m → ∃ debt capacity factor w, runSingle x account asset principal borrow v =
        .error (.refused (.insufficientCollateral debt capacity factor wad)) w) := by
  obtain ⟨q, hrun⟩ := exists_unhindered hnew hloops hprincipal hliquid hallowed hexact.carried
  obtain ⟨p₂, hjudged⟩ := hrun.judged
  obtain ⟨m, hm, hlargest⟩ := Guard.exists_maxSingleBorrow hnew.ltv
    (weighted_principal_exact hnew hrun.admits.principal hexact hjudged)
  have hrefused (hpast : ¬ borrow ≤ m) := runSingle_refused hnew hready hguard hexact hrun
    (Nat.lt_of_not_le fun hwithin => hpast ((hlargest borrow).mpr hwithin))
  refine ⟨m, hm, ⟨?_, fun hle => ?_⟩, hrefused⟩
  · rintro ⟨receipt, w, hsettled⟩
    by_contra hpast
    obtain ⟨debt, capacity, factor, w', hended⟩ := hrefused hpast
    rw [hsettled] at hended
    cases hended
  · exact runSingle_settles hnew hready hguard hexact hrun ((hlargest borrow).mp hle)

end Verdicts

/-- A reserve of 18 decimals at a price of one, and an account that is new to it. -/
def newcomerVenue : Venue where
  pool := history { feeBps := 9, wrappedNative := ⟨1⟩ }
    [.list { asset := ⟨1⟩, symbol := "A", decimals := 18, ltvBps := 7000,
             liquidationThresholdBps := 7500 },
     .supply ⟨1⟩ 4668, .approve ⟨8⟩ ⟨7⟩ ⟨1⟩ 2334]

def newcomerReserve : Reserve where
  asset := ⟨1⟩
  symbol := "A"
  decimals := 18
  ltvBps := 7000
  liquidationThresholdBps := 7500
  liquidity := 4668

/-- The formula truncates from 2333 and a third, and one unit more is refused. -/
theorem runSingle_boundary_truncated :
    (∃ receipt w, runSingle { operator := ⟨7⟩ } ⟨8⟩ ⟨1⟩ 1000 2333 newcomerVenue = .ok receipt w) ∧
    ∃ debt capacity factor w, runSingle { operator := ⟨7⟩ } ⟨8⟩ ⟨1⟩ 1000 2334 newcomerVenue =
      .error (.refused (.insufficientCollateral debt capacity factor wad)) w := by
  have hnew : Newcomer ⟨8⟩ ⟨1⟩ newcomerReserve newcomerVenue.pool := {
    reachable := ⟨9, ⟨1⟩, _, rfl⟩
    closed := by decide +kernel
    empty := fun _ => ⟨rfl, rfl⟩
    listed := by decide +kernel
    plain := ⟨rfl, rfl, rfl, rfl⟩
    price := by decide
    valued := by decide
    ltv := by decide
    threshold := by decide }
  have hready : newcomerVenue.Ready newcomerVenue.pool := ⟨rfl, rfl, rfl⟩
  have hlargest : Guard.maxSingleBorrow 1000 7000 = .ok 2333 := by decide +kernel
  have hexact (borrow : Word) (h : borrow = 2333 ∨ borrow = 2334) :
      ExactRun { operator := ⟨7⟩ } ⟨8⟩ ⟨1⟩ (.single 1000 borrow) newcomerVenue.pool := by
    rcases h with rfl | rfl <;> exact {
      carried := by decide +kernel
      totals := by decide +kernel
      guard := {
        collateral := by decide +kernel
        debt := by decide +kernel
        capacity := by decide +kernel
        weighted := by decide +kernel
        totalDebt := by decide +kernel
        factor := by decide +kernel } }
  obtain ⟨m, hm, haccepted, -⟩ := runSingle_boundary hnew hready rfl (by decide) (by decide)
    (by decide) (by decide +kernel) (hexact 2333 (.inl rfl))
  obtain ⟨m', hm', -, hrefused⟩ := runSingle_boundary hnew hready rfl (by decide) (by decide)
    (by decide) (by decide +kernel) (hexact 2334 (.inr rfl))
  cases hlargest.symm.trans hm
  cases hlargest.symm.trans hm'
  exact ⟨haccepted.mpr (by decide), hrefused (by decide)⟩

end Single

end Gearing.Executor
