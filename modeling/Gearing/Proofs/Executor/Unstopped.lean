import Gearing.Proofs.Executor.Blame
import Gearing.Proofs.Executor.Progress

/-!
A run of a plan that has its flash liquidity. Each tranche is lent out of the one that was supplied just before it, and
the allowance that was looked at once covers all of them, so from there on only the guard can stop the run.
-/
namespace Gearing.Executor
open Gearing.Action Pool Flash
variable {x : Executor} {account asset : Address} {principal : Word} {plan : Plan} {s : Schedule} {v w : Venue}

section Log

theorem since_of_guard {plan : Option Plan} {cause : EngineError} (hfaults : v.faults = []) (hsound : v.pool.Sound)
    (hguard : cause.FromGuard) (hrun : runSchedule x account asset s plan v = .error (.refused cause) w) :
    v.since w = judgedOps x account asset s ++ [.revert (v.pool.lastCheckpoint + 1)] := by
  cases hopened : opening x account asset s v with
  | error e w' =>
    rw [runSchedule_eq, run_bind, hopened] at hrun
    cases hrun
    exact absurd hguard ((Blameless.halts v).of_error hopened)
  | ok id u =>
    obtain ⟨hpath, rfl, hpool, -⟩ := (opening_ends x account asset s v).of_ok hopened
    rw [runSchedule_of_opened plan hopened] at hrun
    cases hexecute : own.execute x account asset s { venue := u } with
    | ok health run =>
      -- What has passed its guard is not refused for its collateral any more.
      have hlater : (underCheckpoint (v.pool.lastCheckpoint + 1) (own.execute x account asset s) >>=
          own.report account asset s plan).Ends (fun _ _ => True) (fun e _ => ¬ e.FromGuard) u := by
        rw [ends_bind, Ends, underCheckpoint_of_ok hexecute]
        refine (conclude_blames _ run run.venue health).mono (fun ending w' h => ?_) (fun _ _ h => h)
        obtain ⟨outcome, run'⟩ := ending
        cases outcome with
        | error cause' => exact h cause' rfl
        | ok health' => exact Blameless.halts w'
      exact absurd hguard (hlater.of_error hrun)
    | error e run =>
      have hopensound : u.pool.Sound := hpath.pool.sound hsound
      have hkept : (u.pool.journals.get? (v.pool.lastCheckpoint + 1)).isSome := by
        rw [hpool]
        exact Option.isSome_of_mem (Table.get?_set_self ..)
      obtain ⟨w', hclosing, hdone⟩ :=
        closing_of_error plan (hpath.faults.trans hfaults) hopensound hkept hexecute
      rw [hrun] at hclosing
      cases hclosing
      obtain ⟨hjudged, -⟩ := (execute_blames x account asset s { venue := u }).of_error hexecute hguard
      refine Venue.since_eq ?_
      rw [hdone cause rfl, (hpath.trans hjudged).done]
      simp [judgedOps]

end Log

/-- A run of the plan is let in, and its flash liquidity is handed out. -/
structure Acquired (x : Executor) (account asset : Address) (principal : Word) (plan : Plan) (s : Schedule)
    (v : Venue) : Prop where
  ratio : plan.borrowRatio ≤ scale
  schedule : Schedule.ofPlan principal plan = .ok s
  funded : ∃ id u t r, opening x account asset s v = .ok id u ∧ own.fund account asset s { venue := u } = .ok t r

/-- Up to the verdict of the guard nothing wraps: not the cash in hand, not what the run carries out, and not what the
guard weighs. -/
@[mk_iff]
structure ExactBuild (x : Executor) (account asset : Address) (s : Schedule) (p : Pool) : Prop where
  cash : s.principal.toNat + (p.flashFee s.totalBorrow).toNat + (s.borrows.map BitVec.toNat).sum < 2 ^ 256
  carried : p.Exact (judgedOps x account asset s)
  guard : Guard.Exact ((p.history (judgedOps x account asset s)).snapshot account).holdings

instance (p : Pool) : Decidable (ExactBuild x account asset s p) :=
  decidable_of_iff' _ (exactBuild_iff x account asset s p)

theorem ExactBuild.totalBorrow {p : Pool} (h : ExactBuild x account asset s p) :
    s.totalBorrow.toNat = (s.borrows.map BitVec.toNat).sum := by
  have hcash := h.cash
  exact Word.toNat_sum (by omega)

theorem ExactBuild.tranches {p p₁ : Pool} {a : Answer} (h : ExactBuild x account asset s p)
    (hclosed : p.opened.get? account = none)
    (hacquire : (p.openJournal account).Effect (.acquire asset s.totalBorrow account) a p₁) :
    p₁.Exact (roundOps x.operator account asset s.principal s.borrows ++
      [.deposit asset (lastTranche s.principal s.borrows) account]) := by
  obtain ⟨-, hexact⟩ := h.carried
  rw [after_of_effect (.checkpoint hclosed)] at hexact
  obtain ⟨-, hexact⟩ := hexact
  rwa [after_of_effect hacquire] at hexact

namespace Acquired

theorem tranches (h : Acquired x account asset principal plan s v) :
    s.tranches.IsChain (fun a b => b ≤ a) ∧ s.loopCount = plan.loopCount := by
  obtain ⟨hprincipal, htail⟩ := Schedule.ofPlan_ok h.schedule
  have hratio : plan.borrowRatio < 2 ^ 256 := h.ratio.trans_lt (by decide)
  refine ⟨?_, Schedule.loopCount_of_plan hratio h.schedule⟩
  rw [Schedule.tranches, hprincipal]
  exact Schedule.isChain_tail? h.ratio htail

theorem admitted (h : Acquired x account asset principal plan s v) :
    v.pool.opened.get? account = none ∧ x.Admits account asset s v.pool ∧
      ∃ r, v.pool.reserve? asset = some r ∧ s.totalBorrow ≤ r.liquidity := by
  obtain ⟨id, u, t, r, hopened, hfunded⟩ := h.funded
  obtain ⟨hpath, -, hpool, hadmits⟩ := (opening_ends x account asset s v).of_ok hopened
  obtain ⟨-, hacquired, -⟩ := (fund_ends account asset 0 s { venue := u }).of_ok hfunded
  refine ⟨hpath.pool.opened.1, hadmits, ?_⟩
  have hcarried := hacquired.pool
  rw [hpool] at hcarried
  cases hcarried with
  | cons acquire _ =>
    cases acquire with
    | acquire listed _ liquid => exact ⟨_, listed, liquid⟩

theorem unhindered (h : Acquired x account asset principal plan s v)
    (hindices : ∀ r, v.pool.reserve? asset = some r → r.liquidityIndex ≠ 0 ∧ r.borrowIndex ≠ 0)
    (hbound : x.bounds.maxLoopCount < 2 ^ 32) (hexact : ExactBuild x account asset s v.pool) :
    ∃ q, Unhindered x account asset s v.pool q := by
  obtain ⟨hclosed, hadmits, r, hr, hliquid⟩ := h.admitted
  obtain ⟨hchain, -⟩ := h.tranches
  have husable : r.Usable := by
    obtain ⟨c, hc, hactive, henabled⟩ := hadmits.borrowable
    obtain rfl : c = r := Option.some.inj (hc.symm.trans hr)
    exact ⟨hactive, henabled, (hindices c hr).1, (hindices c hr).2⟩
  have htotal := hexact.totalBorrow
  have hallowed : account ≠ x.operator → (s.borrows.map BitVec.toNat).sum ≤
      (v.pool.allowance account x.operator asset).toNat := by
    intro hne
    rw [← htotal]
    exact BitVec.le_def.mp (hadmits.delegated hne)
  obtain ⟨q, hcarried⟩ := exists_carried_wholeScript hclosed hr husable hchain hliquid hallowed
    fun a p₁ hacquire => hexact.tranches hclosed hacquire
  have hcash := hexact.cash
  rw [← htotal] at hcash
  refine ⟨q, hadmits, hadmits.loops.trans_lt hbound, hcarried, hcash, fun a ha => ?_⟩
  have hle := BitVec.le_def.mp (Schedule.le_of_isChain hchain ha)
  omega

end Acquired

/-- Once its flash liquidity is handed out, a run of a plan supplies each tranche and borrows each but the first, and
then it either repays and settles or its guard refuses the account, and it is rolled back. -/
theorem runPlan_unstopped (hpool : v.pool.Reachable) (hfaults : v.faults = []) (hquoted : v.feeBps = v.pool.feeBps)
    (hindices : ∀ r, v.pool.reserve? asset = some r → r.liquidityIndex ≠ 0 ∧ r.borrowIndex ≠ 0)
    (hbound : x.bounds.maxLoopCount < 2 ^ 32) (hacquired : Acquired x account asset principal plan s v)
    (hexact : ExactBuild x account asset s v.pool) :
    s.loopCount = plan.loopCount ∧
    ((∃ receipt w, runPlan x account asset principal plan v = .ok receipt w ∧
      v.since w = wholeScript x account asset s v.pool) ∨
    ∃ debt capacity factor w, runPlan x account asset principal plan v =
        .error (.refused (.insufficientCollateral debt capacity factor x.guard.floor)) w ∧
      v.since w = judgedOps x account asset s ++ [.revert (v.pool.lastCheckpoint + 1)]) := by
  obtain ⟨-, hloops⟩ := hacquired.tranches
  obtain ⟨-, hadmits, -⟩ := hacquired.admitted
  obtain ⟨q, hrun⟩ := hacquired.unhindered hindices hbound hexact
  obtain ⟨p₂, hjudged⟩ := hrun.judged
  have hready : v.Ready v.pool := ⟨rfl, hfaults, hquoted⟩
  have hguard := hexact.guard
  rw [hjudged.history_eq] at hguard
  have hcount : ¬ x.bounds.maxLoopCount < plan.loopCount := by
    rw [← hloops]
    exact Nat.not_lt_of_le hadmits.loops
  have hplan : runPlan x account asset principal plan v = runSchedule x account asset s (some plan) v := by
    rw [runPlan, if_neg (Nat.not_lt_of_le hacquired.ratio), if_neg hcount, hacquired.schedule]
  obtain ⟨haccepts, hrefuses⟩ := Guard.check_exact x.guard (s.totalBorrow != 0) hguard
  rw [hplan]
  refine ⟨hloops, ?_⟩
  by_cases hpasses : x.guard.Passes (s.totalBorrow != 0) (p₂.snapshot account).holdings
  · left
    have hgoes := runSchedule_goes (some plan) hready hrun fun p₃ hjudged' => by
      rw [← hjudged'.history_eq, hjudged.history_eq]
      exact haccepts hpasses
    cases hended : runSchedule x account asset s (some plan) v with
    | ok receipt w =>
      have hsettles := (runSchedule_ends x account asset s (some plan) v).of_ok hended
      exact ⟨receipt, w, rfl, Venue.since_eq hsettles.done⟩
    | error e w => exact (hgoes.of_error hended).elim
  · right
    obtain ⟨debt, capacity, factor, hcheck⟩ := hrefuses hpasses
    have hrefused := runSchedule_refused (some plan) hready hpool.sound hrun hjudged hcheck
    cases hended : runSchedule x account asset s (some plan) v with
    | ok receipt w => exact (hrefused.of_ok hended).elim
    | error e w =>
      obtain rfl := hrefused.of_error hended
      have hblamed : (EngineError.insufficientCollateral debt capacity factor x.guard.floor).FromGuard := trivial
      exact ⟨debt, capacity, factor, w, rfl, since_of_guard hfaults hpool.sound hblamed hended⟩

/-- A reserve that deposits and debts have grown on, and an account that allows the executor to borrow. -/
def grownVenue : Venue where
  pool := history { feeBps := 9, wrappedNative := ⟨1⟩ }
    [.list { asset := ⟨1⟩, symbol := "A", decimals := 18, ltvBps := 8000, liquidationThresholdBps := 8500,
             liquidityIndex := BitVec.ofNat 256 (11 * 10 ^ 26),
             borrowIndex := BitVec.ofNat 256 (12 * 10 ^ 26) },
     .supply ⟨1⟩ 1000000, .approve ⟨8⟩ ⟨7⟩ ⟨1⟩ 9000]

/-- Two loops settle there, and nine loops of the whole tranche are past the limit of the reserve. -/
theorem runPlan_unstopped_grown :
    (∃ receipt w, runPlan { operator := ⟨7⟩ } ⟨8⟩ ⟨1⟩ 1000 ⟨2, 7000⟩ grownVenue = .ok receipt w ∧
      grownVenue.since w = wholeScript { operator := ⟨7⟩ } ⟨8⟩ ⟨1⟩ ⟨1000, [700, 490]⟩ grownVenue.pool) ∧
    ∃ debt capacity factor w, runPlan { operator := ⟨7⟩ } ⟨8⟩ ⟨1⟩ 1000 ⟨9, 10000⟩ grownVenue =
        .error (.refused (.insufficientCollateral debt capacity factor FixedPoint.wad)) w ∧
      grownVenue.since w = judgedOps { operator := ⟨7⟩ } ⟨8⟩ ⟨1⟩ ⟨1000, List.replicate 9 1000⟩ ++ [.revert 1] := by
  have hpool : grownVenue.pool.Reachable := ⟨9, ⟨1⟩, _, rfl⟩
  have hindices : ∀ r, grownVenue.pool.reserve? ⟨1⟩ = some r → r.liquidityIndex ≠ 0 ∧ r.borrowIndex ≠ 0 := by
    decide +kernel
  have hacquired {plan : Plan} {s : Schedule} {t : Ticket} (hratio : plan.borrowRatio ≤ scale)
      (hs : Schedule.ofPlan 1000 plan = .ok s)
      (hopened : (opening { operator := ⟨7⟩ } ⟨8⟩ ⟨1⟩ s).answer grownVenue = .ok 1)
      (hfunded : (own.fund ⟨8⟩ ⟨1⟩ s).answer
        { venue := (opening { operator := ⟨7⟩ } ⟨8⟩ ⟨1⟩ s).final grownVenue } = .ok t) :
      Acquired { operator := ⟨7⟩ } ⟨8⟩ ⟨1⟩ 1000 plan s grownVenue :=
    ⟨hratio, hs, 1, _, t, _, eq_ok_of_answer hopened, eq_ok_of_answer hfunded⟩
  constructor
  · have hrun := @hacquired ⟨2, 7000⟩ ⟨1000, [700, 490]⟩ ⟨1, ⟨1⟩, 1190, 1⟩ (by decide) (by decide +kernel)
      (by decide +kernel) (by decide +kernel)
    obtain ⟨-, hsettled | ⟨debt, capacity, factor, w, hrefused, -⟩⟩ :=
      runPlan_unstopped hpool rfl rfl hindices (by decide) hrun (by decide +kernel)
    · exact hsettled
    · have hanswer := answer_of_error hrefused
      have hok : ((runPlan { operator := ⟨7⟩ } ⟨8⟩ ⟨1⟩ 1000 ⟨2, 7000⟩).answer grownVenue).toOption.isSome := by
        decide +kernel
      rw [hanswer] at hok
      cases hok
  · have hrun := @hacquired ⟨9, 10000⟩ ⟨1000, List.replicate 9 1000⟩ ⟨1, ⟨1⟩, 9000, 8⟩ (by decide)
      (by decide +kernel) (by decide +kernel) (by decide +kernel)
    obtain ⟨-, ⟨receipt, w, hsettled, -⟩ | hrefused⟩ :=
      runPlan_unstopped hpool rfl rfl hindices (by decide) hrun (by decide +kernel)
    · have hanswer := answer_of_ok hsettled
      have hnone : ((runPlan { operator := ⟨7⟩ } ⟨8⟩ ⟨1⟩ 1000 ⟨9, 10000⟩).answer grownVenue).toOption = none := by
        decide +kernel
      rw [hanswer] at hnone
      cases hnone
    · exact hrefused

end Gearing.Executor
