import Gearing.Proofs.Executor.Progress
import Gearing.Proofs.Solver

/-!
Plans that can always be run. The geometric sum keeps the debt of a plan within the share of the reserve's
limit in what is supplied, and up to ten decimals no truncation of the guard undoes it. So once the
liquidity and the allowance cover the borrow, nothing is left to refuse the run.
-/
namespace Gearing.Executor
open Gearing.Action Pool FixedPoint
variable (x : Executor) (account asset : Address)

/-- An account without debt, before a venue that works and a reserve that can be looped. The guard's floor
leaves the room that there is between the two thresholds of the reserve. -/
structure Eligible (r : Reserve) (v : Venue) : Prop where
  reachable : v.pool.Reachable
  faults : v.faults = []
  quoted : v.feeBps = v.pool.feeBps
  closed : v.pool.opened.get? account = none
  debtFree : ∀ c ∈ v.pool.reserves, (v.pool.totals account c).2 = 0
  listed : v.pool.reserve? asset = some r
  plain : r.Plain
  decimals : r.decimals ≤ 10
  ltv : r.ltvBps < scale
  room : x.guard.floor.toNat * r.ltvBps ≤ wad.toNat * r.liquidationThresholdBps
  rounds : x.bounds.maxLoopCount < 2 ^ 32

theorem room_of_default {r : Reserve} (h : r.ltvBps ≤ r.liquidationThresholdBps) :
    ({} : Guard).floor.toNat * r.ltvBps ≤ wad.toNat * r.liquidationThresholdBps :=
  Nat.mul_le_mul_left wad.toNat h

/-- What the run borrows is there and is allowed, and nothing in it wraps. -/
structure Affordable (r : Reserve) (s : Schedule) (p : Pool) : Prop where
  liquid : s.totalBorrow ≤ r.liquidity
  delegated : account ≠ x.operator → s.totalBorrow ≤ p.allowance account x.operator asset
  exact : ExactRun x account asset s p

/-- Plans within the loan-to-value limit and the loop bound. -/
def Within (maxLtv : Nat) (plan : Plan) : Prop :=
  plan.borrowRatio ≤ maxLtv ∧ plan.loopCount ≤ x.bounds.maxLoopCount

variable {x account asset} {r : Reserve} {v : Venue} {principal : Word} {plan : Plan} {s : Schedule}

theorem within_of_solve {target maxLtv : Nat} (hloops : 1 ≤ x.bounds.maxLoopCount)
    (h : Solver.solve x.bounds target maxLtv = .ok plan) : x.Within maxLtv plan :=
  ⟨Solver.borrowRatio_le_of_solve h, Solver.loopCount_le_of_solve hloops h⟩

/-- What a plan borrows is below its ratio times the principal, which supplying the principal on an index of
one leaves room for. -/
theorem totalBorrow_exact (hbelow : plan.borrowRatio < scale) (hs : Schedule.ofPlan principal plan = .ok s)
    (hprincipal : s.principal.toNat * ray.toNat + (ray / 2).toNat < 2 ^ 256) :
    s.totalBorrow.toNat = (s.borrows.map BitVec.toNat).sum := by
  obtain ⟨hprin, htail⟩ := Schedule.ofPlan_ok hs
  have hscale : scale = 10000 := rfl
  have hray : ray.toNat = 10 ^ 27 := by decide
  rw [hprin] at hprincipal
  refine Word.toNat_sum ?_
  have hsum := Schedule.sum_amounts_le hbelow plan.loopCount principal.toNat
  have hfits : plan.borrowRatio * principal.toNat ≤ principal.toNat * ray.toNat := by
    rw [Nat.mul_comm]
    exact Nat.mul_le_mul_left _ (by omega)
  rw [Schedule.map_toNat_tail? (by omega) htail]
  omega

theorem runPlan_goes (heligible : Eligible x account asset r v) (hprincipal : principal ≠ 0)
    (hplan : x.Within r.ltvBps plan) (hs : Schedule.ofPlan principal plan = .ok s)
    (hafford : Affordable x account asset r s v.pool) :
    (runPlan x account asset principal plan).Ends (fun _ _ => True) (fun _ _ => False) v := by
  obtain ⟨hratio, hcount⟩ := hplan
  obtain ⟨hprin, htail⟩ := Schedule.ofPlan_ok hs
  have hscale : scale = 10000 := rfl
  have hbelow : plan.borrowRatio < scale := hratio.trans_lt heligible.ltv
  have hsound := heligible.reachable.sound
  have hexact := hafford.exact.carried
  have hchain : s.tranches.IsChain (fun a b => b ≤ a) := by
    rw [Schedule.tranches, hprin]
    exact Schedule.isChain_tail? (by omega) htail
  have hlength : s.loopCount = plan.loopCount := Schedule.loopCount_of_plan (by omega) hs
  have hamounts := Schedule.map_toNat_tail? (by omega) htail
  have htotal := totalBorrow_exact hbelow hs
    (principal_exact heligible.closed heligible.listed heligible.plain hafford.liquid hexact)
  have hallowed : account ≠ x.operator → (s.borrows.map BitVec.toNat).sum ≤
      (v.pool.allowance account x.operator asset).toNat := by
    intro hne
    rw [← htotal]
    exact BitVec.le_def.mp (hafford.delegated hne)
  obtain ⟨q, hcarried⟩ := exists_carried_wholeScript heligible.closed heligible.listed
    heligible.plain.usable hchain hafford.liquid hallowed
    fun a p₁ hacquire => exact_tranches heligible.closed hacquire hexact
  have hreturned := liquidity_exact hsound heligible.listed htotal hexact hcarried
  have hlent := BitVec.le_def.mp hafford.liquid
  have hcash : s.principal.toNat + (v.pool.flashFee s.totalBorrow).toNat + s.totalBorrow.toNat <
      2 ^ 256 := by omega
  have hlimit : scale * (s.borrows.map BitVec.toNat).sum ≤
      r.ltvBps * (s.principal.toNat + (s.borrows.map BitVec.toNat).sum) := by
    rw [hamounts, hprin]
    exact (Schedule.scale_mul_sum_amounts _ _ _).trans (Nat.mul_le_mul_right _ hratio)
  have hadmits : x.Admits account asset s v.pool :=
    ⟨⟨r, heligible.listed, heligible.plain.active, heligible.plain.enabled⟩,
      by rw [hprin]; exact hprincipal, by rw [hlength]; exact hcount, hafford.delegated⟩
  have hrounds : s.loopCount < 2 ^ 32 := by
    have hbound := heligible.rounds
    omega
  have hready : v.Ready v.pool := ⟨rfl, heligible.faults, heligible.quoted⟩
  rw [runPlan, if_neg (by omega), if_neg (by omega), hs]
  have hroom : ∀ a ∈ s.borrows,
      (v.pool.flashFee s.totalBorrow).toNat + s.totalBorrow.toNat + a.toNat < 2 ^ 256 := by
    intro a ha
    have hle := BitVec.le_def.mp (Schedule.le_of_isChain hchain ha)
    omega
  refine (runSchedule_goes (some plan) hready ⟨hadmits, hrounds, hcarried, hcash, hroom⟩
    fun p₂ hjudged => ?_).mono (fun _ _ _ => trivial) (fun _ _ h => h)
  exact exists_check_judged _ hsound heligible.listed heligible.plain (.inl heligible.decimals)
    heligible.debtFree hlimit heligible.room hafford.exact hjudged

/-- Every plan that the solver finds for the limit of a reserve settles there, and so does every other plan
within the same bounds. -/
theorem runPlan_settles (heligible : Eligible x account asset r v) (hprincipal : principal ≠ 0)
    (hplan : x.Within r.ltvBps plan ∨ (1 ≤ x.bounds.maxLoopCount ∧
      ∃ target, Solver.solve x.bounds target r.ltvBps = .ok plan))
    (hs : Schedule.ofPlan principal plan = .ok s)
    (hafford : Affordable x account asset r s v.pool) :
    ∃ receipt w, runPlan x account asset principal plan v = .ok receipt w := by
  have hwithin : x.Within r.ltvBps plan := by
    rcases hplan with hwithin | ⟨hloops, target, hsolve⟩
    · exact hwithin
    · exact within_of_solve hloops hsolve
  have hgoes := runPlan_goes heligible hprincipal hwithin hs hafford
  cases hrun : runPlan x account asset principal plan v with
  | ok receipt w => exact ⟨receipt, w, rfl⟩
  | error e w => exact (hgoes.of_error hrun).elim

/-- A reserve with just enough to lend for a threefold position, and an account that holds another token and
allows the executor as much. -/
def threefoldVenue : Venue where
  pool := history { feeBps := 9, wrappedNative := ⟨1⟩ }
    [.list { asset := ⟨1⟩, symbol := "A", decimals := 6, ltvBps := 8000,
             liquidationThresholdBps := 8500 },
     .list { asset := ⟨2⟩, symbol := "B", decimals := 18, ltvBps := 7000,
             liquidationThresholdBps := 7500 },
     .supply ⟨1⟩ 1996137, .deposit ⟨2⟩ 50 ⟨8⟩, .approve ⟨8⟩ ⟨7⟩ ⟨1⟩ 1996137]

def threefoldReserve : Reserve where
  asset := ⟨1⟩
  symbol := "A"
  decimals := 6
  ltvBps := 8000
  liquidationThresholdBps := 8500
  liquidity := 1996137

theorem runPlan_settles_threefold : Solver.solve {} 30000 8000 = .ok ⟨4, 7406⟩ ∧
    ∃ receipt w, runPlan { operator := ⟨7⟩ } ⟨8⟩ ⟨1⟩ 1000000 ⟨4, 7406⟩ threefoldVenue =
      .ok receipt w := by
  have hsolve : Solver.solve {} 30000 8000 = .ok ⟨4, 7406⟩ := by decide +kernel
  have hs : Schedule.ofPlan 1000000 ⟨4, 7406⟩ =
      .ok ⟨1000000, [740600, 548488, 406210, 300839]⟩ := by decide +kernel
  have heligible : Eligible { operator := ⟨7⟩ } ⟨8⟩ ⟨1⟩ threefoldReserve threefoldVenue := {
    reachable := ⟨9, ⟨1⟩, _, rfl⟩
    faults := rfl
    quoted := rfl
    closed := by decide +kernel
    debtFree := by decide +kernel
    listed := by decide +kernel
    plain := ⟨rfl, rfl, rfl, rfl⟩
    decimals := by decide
    ltv := by decide
    room := room_of_default (by decide)
    rounds := by decide }
  have hafford : Affordable { operator := ⟨7⟩ } ⟨8⟩ ⟨1⟩ threefoldReserve
      ⟨1000000, [740600, 548488, 406210, 300839]⟩ threefoldVenue.pool := {
    liquid := by decide +kernel
    delegated := by decide +kernel
    exact := {
      carried := by decide +kernel
      totals := by decide +kernel
      guard := {
        collateral := by decide +kernel
        debt := by decide +kernel
        capacity := by decide +kernel
        weighted := by decide +kernel
        totalDebt := by decide +kernel
        factor := by decide +kernel } } }
  exact ⟨hsolve, runPlan_settles heligible (by decide) (.inr ⟨by decide, 30000, hsolve⟩) hs hafford⟩

end Gearing.Executor
