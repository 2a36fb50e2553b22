import Gearing.Proofs.Executor.Healthy
import Gearing.Proofs.Executor.Undisturbed
import Gearing.Proofs.Pool.Rounding
import Gearing.Proofs.Schedule

/-!
What a settled run reads back of its tranches. The indices do not move while it runs, so on an account
without a balance each tranche is off by its own half of an index at most, and the reading by half a ray.
-/
namespace Gearing
open Gearing.Action Pool FixedPoint

namespace Receipt

/-- The receipt shows what the account has on the asset. -/
def Shows (receipt : Receipt) (account asset : Address) (p : Pool) : Prop :=
  receipt.asset = asset ∧ ∃ r, p.reserve? asset = some r ∧
    receipt.position = ⟨account, asset, (p.totals account r).1, (p.totals account r).2⟩

/-- The position of the receipt is as close to its totals as so many tranches can be, on the indices
that the pool has. -/
def CloseOn (receipt : Receipt) (p : Pool) : Prop :=
  ∃ r, p.reserve? receipt.asset = some r ∧
    Rounded (receipt.schedule.loopCount + 1) r.liquidityIndex receipt.position.deposited
      receipt.schedule.totalDeposit.toNat ∧
    Rounded receipt.schedule.loopCount r.borrowIndex receipt.position.borrowed
      receipt.schedule.totalBorrow.toNat

end Receipt

namespace Executor
variable {x : Executor} {account asset : Address}

section Reading
variable (x account asset)

theorem runSchedule_reads (s : Schedule) (plan : Option Plan) (v : Venue) :
    (runSchedule x account asset s plan).Ends
      (fun receipt w => receipt.Shows account asset w.pool) (fun _ _ => True) v := by
  refine runSchedule_ensures x account asset fun id u health run u' _ _ => ?_
  simp only [Flash.report, ends_bind, onVenue_ends]
  refine (position_reads account asset u').mono (fun pos w h => ?_) (fun _ _ h => h)
  obtain ⟨hpool, hposition⟩ := h
  rw [← hpool] at hposition
  exact ⟨rfl, hposition⟩

theorem serve_reads (request : Request) (v : Venue) :
    (serve x account asset request).Ends
      (fun receipt w => receipt.Shows account asset w.pool) (fun _ _ => True) v :=
  serve_ensures x account asset (fun s plan _ => runSchedule_reads x account asset s plan v) fun _ => trivial

end Reading

section Tranches
variable {s : Schedule} {v w : Venue} {receipt : Receipt}

theorem Settles.divides (h : Settles x account asset s v receipt w)
    (hexact : v.pool.Exact (v.since w)) {r : Reserve} (hr : v.pool.reserve? asset = some r) :
    (∀ a ∈ s.tranches, Divides r.liquidityIndex a) ∧ ∀ a ∈ s.borrows, Divides r.borrowIndex a := by
  rw [Venue.since_eq h.done] at hexact
  obtain ⟨-, hexact⟩ := exact_wholeScript h.carried.opened.1 hexact
  obtain ⟨a, p₁, p₂, b, p₃, c, hacquire, htranches, -⟩ := carried_wholeScript h.carried
  rw [after_of_effect hacquire, List.append_cons, exact_append] at hexact
  have hindexed : (v.pool.openJournal account).Indexed asset r.liquidityIndex r.borrowIndex :=
    ⟨r, hr, rfl, rfl⟩
  exact divides_tranches ((hacquire.moves_acquire x.operator).indexed hindexed) htranches hexact.1

end Tranches

section Whole
variable {s : Schedule} {v w : Venue} {receipt : Receipt} (hsound : v.pool.Sound)
  (hfresh : ¬ v.pool.Holds account receipt.asset) (hexact : v.pool.Exact (v.since w))
  (htotal : (receipt.schedule.tranches.map BitVec.toNat).sum < 2 ^ 256)
  (htotals : ∀ r ∈ w.pool.reserve? receipt.asset, w.pool.ExactTotals account r)
include hsound hfresh hexact htotal htotals

theorem Settles.close (h : Settles x account asset s v receipt w)
    (hshows : receipt.Shows account asset w.pool) : receipt.CloseOn v.pool := by
  obtain ⟨rfl, r', hr', hposition⟩ := hshows
  obtain rfl := h.schedule
  obtain ⟨r, hr, hsettled⟩ := h.settledBy hsound hexact
  obtain ⟨hdeposits, hborrows⟩ := h.divides hexact hr
  -- The run has not moved the indices of the reserve that is read.
  obtain ⟨l, hl, -⟩ := hsettled.liquidity
  rw [hl] at hr'
  cases hr'
  have hread := htotals _ hl
  have hkey := asset_of_reserve? hr
  obtain ⟨hdeposit, hdebt⟩ : (v.pool.balance account receipt.asset).deposit = 0 ∧
      (v.pool.balance account receipt.asset).debt = 0 := by simpa [Holds] using hfresh
  have hzero : (0 : Word).toNat = 0 := rfl
  have hstored := hsettled.deposit
  have howed := hsettled.debt
  rw [hdeposit, hzero, Nat.zero_add] at hstored
  rw [hdebt, hzero, Nat.zero_add] at howed
  have hsupplied : receipt.schedule.totalDeposit.toNat =
      (receipt.schedule.tranches.map BitVec.toNat).sum := by
    rw [Schedule.toNat_totalDeposit htotal, Schedule.tranches, List.map_cons, List.sum_cons]
  refine ⟨r, hr, ?_, ?_⟩
  · rw [hsupplied, hposition]
    exact rounded_of_shares hdeposits (hkey ▸ hstored) hread.1
  · rw [Schedule.toNat_totalBorrow htotal, hposition]
    exact rounded_of_shares hborrows (hkey ▸ howed) hread.2

theorem serve_close {request : Request} (hrun : serve x account asset request v = .ok receipt w) :
    receipt.CloseOn v.pool := by
  obtain ⟨s, -, hsettles⟩ := (serve_ends x account asset request v).of_ok hrun
  exact hsettles.close hsound hfresh hexact htotal htotals
    ((serve_reads x account asset request v).of_ok hrun)

theorem runNative_close {plan : Plan} {attached : Word}
    (hrun : runNative x account plan attached v = .ok receipt w) : receipt.CloseOn v.pool := by
  obtain ⟨asset, request, u, hwrap, hserved⟩ := (runNative_served x account plan attached v).of_ok hrun
  obtain ⟨s, -, hsettles⟩ := (serve_ends x account asset request u).of_ok hserved
  -- Wrapping the value shows neither in the balances nor in the reserves.
  have hpool := hwrap.pool.history_eq
  have hsince : v.since w = [.wrap attached] ++ u.since w := by
    rw [Venue.since_eq hsettles.done]
    refine Venue.since_eq ?_
    rw [hsettles.done, hwrap.done]
    simp
  rw [hsince, exact_append, hpool] at hexact
  have hholds : u.pool.Holds account receipt.asset = v.pool.Holds account receipt.asset := by
    rw [← hpool]
    rfl
  have hclose : receipt.CloseOn u.pool = receipt.CloseOn v.pool := by
    rw [← hpool]
    rfl
  rw [← hclose]
  exact serve_close (hwrap.pool.sound hsound) (hholds ▸ hfresh) hexact.2 htotal htotals hserved

end Whole

end Executor

/-- Rounding is bounded by what was done, for any history in which nothing wraps: a position that starts
from nothing is read within half an index of each amount that made it, and half a ray. The receipt of a
settled run on such an account is that close to its own totals. -/
theorem positions_rounded (feeBps : Nat) (wrappedNative : Address) :
    (∀ (before ops : List Op) (account asset : Address) (side : Side) (r : Reserve),
      let p := history { feeBps, wrappedNative } before
      let q := p.history ops
      let xs := amounts (account, asset) side (live (p.deeds ops))
      (∀ d ∈ deeds { feeBps, wrappedNative } before, d.Exact) → (∀ d ∈ p.deeds ops, d.Exact) →
      (p.balance account asset).stored side = 0 →
      q.reserve? asset = some r → q.ExactTotals account r →
      (∀ d ∈ p.deeds ops, ∀ i ∈ d.index? (account, asset) side, i = r.index side) →
      ∃ x, position account asset q = .ok x q ∧
        Rounded xs.length (r.index side) (x.total side) (xs.map BitVec.toNat).sum) ∧
    ∀ (x : Executor) (account : Address) (v w : Venue) (receipt : Receipt),
      ((∃ asset request, Executor.serve x account asset request v = .ok receipt w) ∨
        ∃ plan attached, Executor.runNative x account plan attached v = .ok receipt w) →
      v.pool.Reachable → ¬ v.pool.Holds account receipt.asset → v.pool.Exact (v.since w) →
      (receipt.schedule.tranches.map BitVec.toNat).sum < 2 ^ 256 →
      (∀ r ∈ w.pool.reserve? receipt.asset, w.pool.ExactTotals account r) →
      receipt.CloseOn v.pool := by
  constructor
  · intro before ops account asset side r p q xs hbefore hexact hzero hr hread hindex
    have hempty := sound_empty feeBps wrappedNative
    have hstart := (accounted_empty feeBps wrappedNative).history hempty before
    exact hstart.rounded (hempty.history before) hbefore hexact hzero hr hindex hread
  · intro x account v w receipt hrun hpool hfresh hexact htotal htotals
    obtain ⟨asset, request, hrun⟩ | ⟨plan, attached, hrun⟩ := hrun
    · exact Executor.serve_close hpool.sound hfresh hexact htotal htotals hrun
    · exact Executor.runNative_close hpool.sound hfresh hexact htotal htotals hrun

/-- A reserve whose indices are odd and not one. -/
def accruedReserve : Reserve where
  asset := ⟨1⟩
  symbol := "A"
  decimals := 18
  ltvBps := 8000
  liquidationThresholdBps := 8500
  liquidityIndex := ray + ray / 2 + 1
  borrowIndex := ray + ray + 1

def accrued : List Op := [.list accruedReserve, .supply ⟨1⟩ 1000000, .deposit ⟨1⟩ 9 ⟨8⟩]

def accruedVenue : Venue where
  pool := history { feeBps := 9, wrappedNative := ⟨1⟩ } accrued

/-- Four deposits, one of them taken back. -/
def instalments : List Op := [.deposit ⟨1⟩ 3 ⟨7⟩, .deposit ⟨1⟩ 5 ⟨7⟩, .checkpoint ⟨7⟩,
  .deposit ⟨1⟩ 7 ⟨7⟩, .revert 1, .deposit ⟨1⟩ 11 ⟨7⟩]

def accruedRun : Executor.ExecM Receipt :=
  Executor.serve { operator := ⟨7⟩ } ⟨7⟩ ⟨1⟩ (.planned 1000 ⟨2, 7000⟩)

/-- The instalments come to 19 and read as 18. The run supplies 2190, which reads as 2192. -/
theorem positions_rounded_accrued :
    (∃ x, position ⟨7⟩ ⟨1⟩ (accruedVenue.pool.history instalments) =
        .ok x (accruedVenue.pool.history instalments) ∧
      Rounded 3 accruedReserve.liquidityIndex x.deposited 19) ∧
    ∃ receipt w, accruedRun accruedVenue = .ok receipt w ∧
      receipt.schedule = ⟨1000, [700, 490]⟩ ∧ receipt.position.deposited = 2192 ∧
      receipt.CloseOn accruedVenue.pool := by
  obtain ⟨hhistory, hrun⟩ := positions_rounded 9 ⟨1⟩
  constructor
  · have hamounts : amounts (⟨7⟩, ⟨1⟩) .deposit (live (accruedVenue.pool.deeds instalments)) =
        [3, 5, 11] := by decide +kernel
    have hall : ∀ d ∈ accruedVenue.pool.deeds instalments,
        (d.index? (⟨7⟩, ⟨1⟩) .deposit).all (· == accruedReserve.liquidityIndex) := by decide +kernel
    have hindex : ∀ d ∈ accruedVenue.pool.deeds instalments, ∀ i ∈ d.index? (⟨7⟩, ⟨1⟩) .deposit,
        i = accruedReserve.liquidityIndex := by
      intro d hd i hi
      have hd := hall d hd
      rw [Option.mem_def.mp hi] at hd
      exact eq_of_beq hd
    have hrounded := hhistory accrued instalments ⟨7⟩ ⟨1⟩ .deposit
      { accruedReserve with liquidity := 1000028 } (by decide +kernel) (by decide +kernel)
      (by decide +kernel) (by decide +kernel) (by decide +kernel) hindex
    change ∃ x, _ = _ ∧
      Rounded (amounts _ _ (live (accruedVenue.pool.deeds instalments))).length _ _
        ((amounts _ _ (live (accruedVenue.pool.deeds instalments))).map BitVec.toNat).sum at hrounded
    rw [hamounts] at hrounded
    exact hrounded
  · have hanswer : (accruedRun.answer accruedVenue).map
        (fun receipt => (receipt.asset, receipt.schedule, receipt.position.deposited)) =
          .ok (⟨1⟩, ⟨1000, [700, 490]⟩, 2192) := by decide +kernel
    obtain ⟨receipt, hok, hreceipt⟩ := exists_ok_of_map_answer hanswer
    obtain ⟨hasset, hschedule, hposition⟩ : receipt.asset = ⟨1⟩ ∧
        receipt.schedule = ⟨1000, [700, 490]⟩ ∧ receipt.position.deposited = 2192 := by
      simpa using hreceipt
    have hrounded := hrun { operator := ⟨7⟩ } ⟨7⟩ accruedVenue _ receipt
      (.inl ⟨⟨1⟩, .planned 1000 ⟨2, 7000⟩, hok⟩) ⟨9, ⟨1⟩, accrued, rfl⟩
    rw [hasset, hschedule] at hrounded
    refine ⟨receipt, _, hok, hschedule, hposition, ?_⟩
    exact hrounded (by decide +kernel) (by decide +kernel) (by decide +kernel) (by decide +kernel)

end Gearing
