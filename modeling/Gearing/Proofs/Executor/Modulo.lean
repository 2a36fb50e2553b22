import Gearing.Proofs.Executor.Settled
import Gearing.Proofs.Pool.Totals

/-!
What a run does to the liquidity and to its totals where sums may wrap.

Every inflow and outflow of a run shifts the liquidity by a word, whatever it was before. The shifts of the
tranches cancel but for the first one, and the flash liquidity comes back with its fee, so a settled run
shifts the liquidity by the principal and the fee. Nothing in it looks at whether the sum still fits, and the
totals of the receipt are wrapping sums as well.
-/
namespace Gearing
open Gearing.Action Pool FixedPoint

namespace Pool

/-- The liquidity of the asset is higher by `d` in `q`, modulo `2 ^ 256`; its reserve is the same otherwise. -/
def Shifts (asset : Address) (d : Word) (p q : Pool) : Prop :=
  ∀ r, p.reserve? asset = some r → q.reserve? asset = some { r with liquidity := r.liquidity + d }

section
variable {p q r : Pool} {asset account : Address} {amount d d' : Word} {a : Answer}

theorem Shifts.trans (h : Shifts asset d p q) (h' : Shifts asset d' q r) :
    Shifts asset (d + d') p r := by
  intro s hs
  rw [h' _ (h s hs), ← add_assoc]

theorem shifts_of_mapLiquidity {f : Word → Word} (hf : ∀ l, f l = l + d)
    (h : q.reserves = (p.mapLiquidity asset f).reserves) : Shifts asset d p q := by
  intro s hs
  rw [reserve?_of_reserves h, reserve?_mapLiquidity, hs, Option.map_some, if_pos (asset_of_reserve? hs),
    hf]

theorem shifts_of_reserves (h : q.reserves = p.reserves) : Shifts asset 0 p q :=
  shifts_of_mapLiquidity (f := id) (fun l => (add_zero l).symm) (by rw [mapLiquidity_id, h])

theorem Effect.shifts_deposit (h : p.Effect (.deposit asset amount account) a q) :
    Shifts asset amount p q := by
  cases h with
  | deposit => exact shifts_of_mapLiquidity (fun _ => rfl) (record_reserves ..)

theorem Effect.shifts_borrow {delegatee : Address}
    (h : p.Effect (.borrow asset amount delegatee account) a q) : Shifts asset (-amount) p q := by
  cases h with
  | borrow => exact shifts_of_mapLiquidity (fun l => sub_eq_add_neg l amount) (record_reserves ..)
  | borrowFor => exact shifts_of_mapLiquidity (fun l => sub_eq_add_neg l amount) (record_reserves ..)

theorem Effect.shifts_acquire (h : p.Effect (.acquire asset amount account) a q) :
    Shifts asset (-amount) p q := by
  cases h with
  | acquire => exact shifts_of_mapLiquidity (fun l => sub_eq_add_neg l amount) (record_reserves ..)

theorem Effect.shifts_repay {ticket : Nat} {paid fee : Word} (h : p.Effect (.repay ticket paid) a q)
    (hloan : p.loans.get? ticket = some ⟨asset, amount, fee, account⟩) :
    Shifts asset (amount + fee) p q := by
  cases h with
  | repay out =>
    rw [hloan] at out
    cases out
    exact shifts_of_mapLiquidity (fun _ => rfl) (record_reserves ..)

end
end Pool

namespace Executor
variable {x : Executor} {account asset : Address} {s : Schedule} {p q : Pool}

theorem shifts_tranches {each : Word} {borrows : List Word}
    (h : p.Carried (roundOps x.operator account asset each borrows ++
      [.deposit asset (lastTranche each borrows) account]) q) :
    Shifts asset each p q := by
  induction borrows generalizing each p with
  | nil =>
    cases h with
    | cons deposit tail =>
      cases tail
      exact deposit.shifts_deposit
  | cons next rest ih =>
    cases h with
    | cons deposit h =>
      cases h with
      | cons borrow h =>
        have hnet : each = each + -next + next := by abel
        rw [hnet]
        exact (deposit.shifts_deposit.trans borrow.shifts_borrow).trans (ih h)

theorem shifts_wholeScript (h : p.Carried (wholeScript x account asset s p) q) :
    Shifts asset (s.principal + p.flashFee s.totalBorrow) p q := by
  obtain ⟨a, p₁, p₂, b, p₃, c, hacquire, htranches, hrepay, -, hcommit⟩ := carried_wholeScript h
  have hloan := loan_out hacquire htranches
  have hopened : Shifts asset 0 p (p.openJournal account) := shifts_of_reserves rfl
  have hclosed : Shifts asset 0 p₃ q := by
    cases hcommit with
    | commit => exact shifts_of_reserves rfl
  have hwhole := (((hopened.trans hacquire.shifts_acquire).trans (shifts_tranches htranches)).trans
    (hrepay.shifts_repay hloan)).trans hclosed
  have hnet : s.principal + p.flashFee s.totalBorrow =
      0 + -s.totalBorrow + s.principal + (s.totalBorrow + p.flashFee s.totalBorrow) + 0 := by abel
  rw [hnet]
  exact hwhole

/-- A receipt for any amounts at all. Its totals and the liquidity that the run leaves are the sums modulo
`2 ^ 256`, and so the sums themselves exactly where these fit. What is refused because it does not fit is a
tranche of a plan, before anything has changed. -/
theorem serve_modulo (x : Executor) (account asset : Address) (request : Request) (v : Venue) :
    (∀ receipt w, serve x account asset request v = .ok receipt w →
      receipt.schedule.totalBorrow.Holds (receipt.schedule.borrows.map BitVec.toNat).sum ∧
      receipt.schedule.totalDeposit.Holds (receipt.schedule.tranches.map BitVec.toNat).sum ∧
      ∃ (r : Reserve) (l : Word), v.pool.reserve? asset = some r ∧
        w.pool.reserve? asset = some { r with liquidity := l } ∧
        l.Holds (r.liquidity.toNat + receipt.schedule.principal.toNat + receipt.flashFee.toNat)) ∧
    (request.schedule? = none →
      ∃ cause, serve x account asset request v = .error (.refused (.invalid cause)) v) := by
  refine ⟨fun receipt w hrun => ?_, fun hnone => ?_⟩
  · obtain ⟨s, -, hsettles⟩ := (serve_ends x account asset request v).of_ok hrun
    obtain ⟨r, hr, -⟩ := hsettles.admitted.borrowable
    have hshifts := shifts_wholeScript hsettles.carried r hr
    rw [hsettles.schedule, hsettles.flashFee, hsettles.fee]
    refine ⟨Word.holds_sum s.borrows, ?_, r, _, hr, hshifts, Word.holds_of_mod ?_⟩
    · have hborrow : s.totalBorrow.toNat = _ := (Word.holds_sum s.borrows).1
      apply Word.holds_of_mod
      rw [Schedule.totalDeposit, BitVec.toNat_add, hborrow, Nat.add_mod_mod]
      rfl
    · rw [BitVec.toNat_add, BitVec.toNat_add, Nat.add_mod_mod, Nat.add_assoc]
  · cases request with
    | single => cases hnone
    | planned principal plan =>
      show ∃ cause, runPlan x account asset principal plan v = _
      rw [runPlan]
      split
      · exact ⟨_, rfl⟩
      split
      · exact ⟨_, rfl⟩
      cases hplan : Schedule.ofPlan principal plan with
      | ok s =>
        rw [Request.schedule?, hplan] at hnone
        cases hnone
      | error cause =>
        rw [Schedule.ofPlan] at hplan
        split at hplan
        · cases hplan
        · cases hplan
          exact ⟨_, rfl⟩

def greatestRun (borrow : Word) : ExecM Receipt :=
  serve { operator := ⟨7⟩ } ⟨7⟩ ⟨1⟩ (.single Word.greatest borrow)

/-- With nothing borrowed it settles, and its inflow wraps. -/
theorem serve_modulo_greatest :
    ∃ l : Word, ((greatestRun 0).final (sampleVenue [])).pool.free ⟨1⟩ = l.toNat ∧
      l.Holds (1000000 + (2 ^ 256 - 1)) := by
  have hanswer : ((greatestRun 0).answer (sampleVenue [])).map (fun r => (r.schedule, r.flashFee)) =
      .ok (.single Word.greatest 0, 0) := by
    decide +kernel
  have hfree : samplePool.free ⟨1⟩ = 1000000 := by decide +kernel
  obtain ⟨receipt, hrun, hreceipt⟩ := exists_ok_of_map_answer hanswer
  obtain ⟨hschedule, hfee⟩ := Prod.mk.inj hreceipt
  obtain ⟨-, -, r, l, hr, hl, hholds⟩ :=
    (serve_modulo { operator := ⟨7⟩ } ⟨7⟩ ⟨1⟩ _ (sampleVenue [])).1 receipt _ hrun
  have hliquidity : r.liquidity.toNat = 1000000 := (free_of_reserve? hr).symm.trans hfree
  refine ⟨l, free_of_reserve? hl, ?_⟩
  rw [hschedule, hfee, hliquidity] at hholds
  exact hholds

/-- All that a reserve can hold, of a token without a price. -/
def brimVenue : Venue where
  pool := history { feeBps := 9 }
    [.list { asset := ⟨1⟩, symbol := "A", decimals := 18, ltvBps := 8000,
             liquidationThresholdBps := 8500, price := 0 }, .supply ⟨1⟩ Word.greatest]

/-- A borrow that is short of `2 ^ 256` by `gap`, after a principal that is short of it by about twice as
much. -/
def brimRun (gap : Nat) : ExecM Receipt :=
  serve { operator := ⟨7⟩ } ⟨7⟩ ⟨1⟩
    (.single (BitVec.ofNat 256 (2 ^ 256 - 2 * gap + 2)) (BitVec.ofNat 256 (2 ^ 256 - gap)))

/-- A settled run can leave a reserve with less to lend than it found, and can have supplied more than its
receipt says. A run whose inflow wraps and which is then refused leaves another liquidity than it found,
because taking the inflow back does not wrap. -/
theorem wrapped_run :
    (((greatestRun 0).answer (sampleVenue [])).map (fun r => (r.schedule.principal, r.flashFee)) =
        .ok (Word.greatest, 0) ∧
      (sampleVenue []).pool.free ⟨1⟩ = 1000000 ∧
      ((greatestRun 0).final (sampleVenue [])).pool.free ⟨1⟩ = 999999) ∧
    ((brimRun (2 ^ 256 / 15000)).answer brimVenue).map (fun r =>
        decide (r.schedule.totalDeposit.toNat < (r.schedule.tranches.map BitVec.toNat).sum)) =
      .ok true ∧
    (greatestRun 10).answer (sampleVenue []) = .error (.refused (.settlement Word.greatest 9)) ∧
      ((greatestRun 10).final (sampleVenue [])).pool.free ⟨1⟩ = 10 := by
  decide +kernel

end Executor
end Gearing
