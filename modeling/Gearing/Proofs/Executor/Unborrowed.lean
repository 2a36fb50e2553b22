import Gearing.Proofs.Executor.Blame
import Gearing.Proofs.Pool.Improved

/-!
Runs that borrow nothing. Where such a run is judged, the account has grown on one reserve and is as it was on all
others, so the guard passes it if it passed the account before the run.
-/
namespace Gearing.Executor
open Pool

section Judged
variable {x : Executor} {account asset : Address} {s : Schedule} {p q : Pool}

theorem improves_judged (hp : p.Sound) (hunborrowed : s.borrows = [])
    (hexact : ExactRun x account asset s p) (hcarried : p.Carried (judgedOps x account asset s) q) :
    Guard.Improves (p.snapshot account).holdings (q.snapshot account).holdings := by
  have hread := hexact.totals
  rw [hcarried.history_eq] at hread
  obtain ⟨hclosed, hscript⟩ := hcarried.opened
  rcases hscript with _ | ⟨hacquire, htranches⟩
  obtain ⟨r, hr⟩ : ∃ r, p.reserve? asset = some r := by
    cases hacquire with
    | acquire listed => exact ⟨_, listed⟩
  obtain ⟨hmoves, -⟩ := moves_judged hp hclosed hr hacquire htranches hexact.carried
  have hopened : (p.openJournal account).snapshot account = p.snapshot account :=
    snapshot_congr rfl rfl account
  rw [← hopened]
  exact hmoves.improves (by simp [trancheFlow, hunborrowed]) hread

theorem check_unborrowed (borrowed : Bool) (hp : p.Sound) (hunborrowed : s.borrows = [])
    (hbefore : Guard.Exact (p.snapshot account).holdings) (hexact : ExactRun x account asset s p)
    (hpasses : ∃ report, x.guard.check borrowed (p.snapshot account) = .ok report)
    (hcarried : p.Carried (judgedOps x account asset s) q) :
    ∃ report, x.guard.check borrowed (q.snapshot account) = .ok report := by
  have hafter := hexact.guard
  rw [hcarried.history_eq] at hafter
  exact Guard.check_mono x.guard borrowed (improves_judged hp hunborrowed hexact hcarried) hbefore hafter hpasses

end Judged

/-- More collateral and less debt never lower the capacity or the health factor, and the guard passes what it passed
before. So a run without loops is never refused for the collateral of an account that is at the floor or above. -/
theorem improved_accounts_pass :
    (∀ s s' : Snapshot, Guard.Exact s.holdings → Guard.Exact s'.holdings →
      Guard.Improves s.holdings s'.holdings →
      (∃ report report', Guard.assess s = .ok report ∧ Guard.assess s' = .ok report' ∧
        report.capacity ≤ report'.capacity ∧ report.healthFactor ≤ report'.healthFactor) ∧
      ∀ (g : Guard) (borrowed : Bool), (∃ report, g.check borrowed s = .ok report) →
        ∃ report, g.check borrowed s' = .ok report) ∧
    ∀ (x : Executor) (account asset : Address) (principal : Word) (ratio : Nat) (v : Venue),
      v.pool.Reachable → Guard.Exact (v.pool.snapshot account).holdings →
      ExactRun x account asset ⟨principal, []⟩ v.pool →
      (∃ report, x.guard.check false (v.pool.snapshot account) = .ok report) →
      ∀ e w, runPlan x account asset principal ⟨0, ratio⟩ v = .error (.refused e) w → ¬ e.FromGuard := by
  refine ⟨fun s s' hexact hexact' himproves => ⟨?_, fun g borrowed => ?_⟩, ?_⟩
  · obtain ⟨report, report', hassess, hassess', -, hcapacity, hfactor⟩ :=
      Guard.assess_mono himproves hexact hexact'
    exact ⟨report, report', hassess, hassess', hcapacity, hfactor⟩
  · exact Guard.check_mono g borrowed himproves hexact hexact'
  · intro x account asset principal ratio v hpool hbefore hexact hpasses e w hrun hguard
    rw [runPlan] at hrun
    split at hrun
    · cases hrun
      exact hguard
    rw [if_neg (Nat.not_lt_zero _)] at hrun
    have hschedule : Schedule.ofPlan principal ⟨0, ratio⟩ = .ok ⟨principal, []⟩ := rfl
    rw [hschedule] at hrun
    obtain ⟨q, halt, hcarried, hcheck⟩ :=
      (runSchedule_blames x account asset ⟨principal, []⟩ _ v).of_error hrun hguard
    obtain ⟨report, hpassed⟩ := check_unborrowed false hpool.sound rfl hbefore hexact hpasses hcarried
    cases hcheck.symm.trans hpassed

/-- An account at its capacity, with collateral that does not count yet. -/
def tightSnapshot : Snapshot :=
  ⟨⟨7⟩, [Guard.sampleHolding 10 8 1,
    { Guard.sampleHolding 5 0 1 with asset := ⟨2⟩, collateralEnabled := false }]⟩

/-- The same account with less debt, one more reserve and all of its collateral enabled. -/
def easedSnapshot : Snapshot :=
  ⟨⟨7⟩, [{ Guard.sampleHolding 1 0 1 with asset := ⟨3⟩ },
    { Guard.sampleHolding 5 0 1 with asset := ⟨2⟩ }, Guard.sampleHolding 11 7 1]⟩

/-- A reserve whose deposits have grown by a third, and an account that owes more than it could borrow on another
one, though it is above the floor. -/
def strainedVenue : Venue where
  pool := history { feeBps := 9, wrappedNative := ⟨1⟩ }
    [.list { asset := ⟨1⟩, symbol := "A", decimals := 18, ltvBps := 8000,
             liquidationThresholdBps := 8500 },
     .list { asset := ⟨2⟩, symbol := "B", decimals := 18, ltvBps := 7000, liquidationThresholdBps := 7500,
             liquidityIndex := BitVec.ofNat 256 (4 * 10 ^ 27 / 3) },
     .supply ⟨1⟩ 1000000, .deposit ⟨1⟩ 1000 ⟨7⟩, .borrow ⟨1⟩ 840 ⟨7⟩ ⟨7⟩]

/-- The strained account may supply one unit on the other reserve, though it is refused as soon as it borrows. -/
theorem improved_accounts_pass_strained :
    (∃ report, Guard.check {} true easedSnapshot = .ok report) ∧
    (∀ e w, runPlan { operator := ⟨7⟩ } ⟨7⟩ ⟨2⟩ 1 ⟨0, 7000⟩ strainedVenue = .error (.refused e) w →
      ¬ e.FromGuard) ∧
    (runSingle { operator := ⟨7⟩ } ⟨7⟩ ⟨1⟩ 1 1).answer strainedVenue =
      .error (.refused (.insufficientCollateral 841 801 1012722948870392390 FixedPoint.wad)) := by
  have htight : Guard.Exact tightSnapshot.holdings := by decide +kernel
  have heased : Guard.Exact easedSnapshot.holdings := by decide +kernel
  have hless : Guard.Safer (Guard.sampleHolding 10 8 1) (Guard.sampleHolding 11 7 1) :=
    ⟨rfl, rfl, rfl, rfl, rfl, by decide, by decide, id⟩
  have henabled : Guard.Safer { Guard.sampleHolding 5 0 1 with asset := ⟨2⟩, collateralEnabled := false }
      { Guard.sampleHolding 5 0 1 with asset := ⟨2⟩ } :=
    ⟨rfl, rfl, rfl, rfl, rfl, by decide, by decide, fun _ => rfl⟩
  have himproves : Guard.Improves tightSnapshot.holdings easedSnapshot.holdings :=
    .perm (.further rfl (.safer hless (.safer henabled .nil))) (.cons _ (.swap _ _ _))
  have hbefore : Guard.Exact (strainedVenue.pool.snapshot ⟨7⟩).holdings := by decide +kernel
  have hexact : ExactRun { operator := ⟨7⟩ } ⟨7⟩ ⟨2⟩ ⟨1, []⟩ strainedVenue.pool := by decide +kernel
  have hpasses : ∃ report, Guard.check {} false (strainedVenue.pool.snapshot ⟨7⟩) = .ok report :=
    ⟨_, rfl⟩
  obtain ⟨hsnapshots, hruns⟩ := improved_accounts_pass
  refine ⟨?_, ?_, by decide +kernel⟩
  · exact (hsnapshots _ _ htight heased himproves).2 {} true ⟨_, by rfl⟩
  · exact hruns { operator := ⟨7⟩ } ⟨7⟩ ⟨2⟩ 1 7000 strainedVenue ⟨9, ⟨1⟩, _, rfl⟩ hbefore hexact hpasses

end Gearing.Executor
