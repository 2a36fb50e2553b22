import Gearing.Proofs.Executor.Alongside
import Gearing.Proofs.Executor.Settled

/-!
The run of one account does not depend on a run of another account before it. Whether that one settled or was
refused, what it leaves differs for the first account in the liquidity alone, and there is no less of it.
-/
namespace Gearing
open Gearing.Action Pool

namespace Executor
open Venue
variable {x : Executor} {account asset : Address} {s : Schedule}

section Before
variable {v w : Venue} {p q : Pool}

theorem richer_of_sameBooks (h : q.SameBooks p) (account : Address) :
    Richer account (fun _ => 0) p q where
  reserves := by
    rw [h.reserves, enrich]
    simp
  fits c r _ := r.liquidity.isLt
  balance := h.balance account
  allowance := h.allowance account
  feeBps := h.feeBps

theorem SettledBy.richer {r : Reserve} {fee : Word} {other : Address}
    (h : SettledBy x other asset s r fee p q) (hnodup : p.assets.Nodup) (hr : p.reserve? asset = some r)
    (hfeeBps : q.feeBps = p.feeBps) (hother : other ≠ account) : ∃ extra, Richer account extra p q := by
  obtain ⟨l, hl, hsum⟩ := h.liquidity
  have hle : r.liquidity ≤ l := by
    rw [BitVec.le_def]
    omega
  refine ⟨fun c => if c = asset then l - r.liquidity else 0, ?_, fun c r' hr' => ?_, fun c => ?_,
    fun d c => ?_, hfeeBps⟩
  · -- The liquidity of the run's own reserve has grown, and no other reserve has changed.
    refine reserves_ext (p := p.enrich _) (by rwa [assets_enrich]) ?_ fun c r' hr' => ?_
    · rw [assets_enrich]
      exact h.assets
    · rw [reserve?_enrich] at hr'
      obtain ⟨r₀, hr₀, rfl⟩ := Option.map_eq_some_iff.mp hr'
      by_cases hc : c = asset
      · subst hc
        obtain rfl : r = r₀ := Option.some.inj (hr.symm.trans hr₀)
        rw [hl, if_pos rfl, add_sub_cancel]
      · rw [h.reserves c hc, hr₀, if_neg hc, add_zero]
  · split
    · rename_i hc
      subst hc
      obtain rfl : r = r' := Option.some.inj (hr.symm.trans hr')
      rw [BitVec.toNat_sub_of_le hle]
      have := l.isLt
      omega
    · exact r'.liquidity.isLt
  · exact h.balances account c fun heq => hother (Prod.ext_iff.mp heq).1
  · exact h.allowances account d c (.inr fun heq => hother (Prod.ext_iff.mp heq).1)

theorem Settles.settledBy {receipt : Receipt} (h : Settles x account asset s v receipt w)
    (hsound : v.pool.Sound) (hexact : v.pool.Exact (v.since w)) :
    ∃ r, v.pool.reserve? asset = some r ∧
      SettledBy x account asset s r (v.pool.flashFee s.totalBorrow) v.pool w.pool := by
  rw [Venue.since_eq h.done] at hexact
  obtain ⟨r, hr, -⟩ := h.admitted.borrowable
  obtain ⟨p₃, c, hcommit, ⟨es, hundo⟩, hmoves, hcollateral, hloans⟩ :=
    moves_script hsound hr h.carried hexact
  have hclosed : p₃.Effect (.commit (v.pool.lastCheckpoint + 1)) .done
      (p₃.close (v.pool.lastCheckpoint + 1) account) := .commit hundo.journal
  have hw : w.pool = p₃.close (v.pool.lastCheckpoint + 1) account :=
    (after_of_effect hcommit).symm.trans (after_of_effect hclosed)
  refine ⟨r, hr, ?_⟩
  rw [hw]
  exact .of_moves hsound h.carried.opened.1 hr hmoves hcollateral hloans

/-- What another account finds after a run that is over: more to lend, perhaps, and its own checkpoint as it
was. -/
theorem serve_abreast (x : Executor) {account other : Address} (hother : other ≠ account)
    (asset : Address) (request : Request) (hpool : v.pool.Reachable) (hfaults : v.faults = [])
    (hover : ∀ trap, (serve x other asset request).answer v ≠ .error (.trapped trap))
    (hexact : v.pool.Exact (v.since ((serve x other asset request).final v))) :
    let u := (serve x other asset request).final v
    (∃ extra, u.Abreast account extra v u) ∧
      (u.pool.opened.get? account = none ↔ v.pool.opened.get? account = none) ∧ u.pool.Sound := by
  intro u
  have hsound := hpool.sound
  have habreast : ∀ ops, v.Leads ops u → (∃ extra, Richer account extra v.pool u.pool) →
      (∃ extra, u.Abreast account extra v u) ∧ u.pool.Sound := by
    rintro ops hleads ⟨extra, hricher⟩
    have hnone : u.Leads [] u := ⟨rfl, .nil u.pool, rfl, rfl⟩
    exact ⟨⟨extra, hricher, hfaults, hleads.faults.trans hfaults, hleads.quotedFeeBps, [], hnone⟩,
      hleads.pool.sound hsound⟩
  cases hrun : serve x other asset request v with
  | ok receipt w =>
    obtain rfl : u = w := final_of_ok hrun
    obtain ⟨s, -, hsettles⟩ := (serve_ends x other asset request v).of_ok hrun
    obtain ⟨ops, hleads⟩ := (serve_leads x other asset request hsound).of_ok hrun
    obtain ⟨r, hr, hsettled⟩ := hsettles.settledBy hsound hexact
    have hricher := hsettled.richer hsound.assets hr hleads.pool.feeBps_eq hother
    obtain ⟨hboth, hsound'⟩ := habreast ops hleads hricher
    exact ⟨hboth, by rw [hsettled.opened], hsound'⟩
  | error e w =>
    obtain rfl : u = w := final_of_error hrun
    cases e with
    | trapped trap => exact absurd (answer_of_error hrun) (hover trap)
    | refused cause =>
      obtain ⟨s, hrefused⟩ := refuses_of_serve x other asset hrun
      obtain ⟨ops, hleads⟩ := (serve_leads x other asset request hsound).of_error hrun cause rfl
      have hsame := hrefused.sameState hsound hfaults hexact
      obtain ⟨hboth, hsound'⟩ := habreast ops hleads ⟨_, richer_of_sameBooks hsame.toSameBooks account⟩
      exact ⟨hboth, by rw [hsame.opened], hsound'⟩

/-- A run answers the same after a run of another account, whether that one settled or was refused. Only
where it was short of liquidity, it may do better. -/
theorem serve_undisturbed (x y : Executor) {account other : Address} (hother : other ≠ account)
    (asset asset' : Address) (request request' : Request) {v : Venue} (hpool : v.pool.Reachable)
    (hfaults : v.faults = [])
    (hover : ∀ trap, (serve y other asset' request').answer v ≠ .error (.trapped trap))
    (hexact : v.pool.Exact (v.since ((serve y other asset' request').final v))) :
    let run := serve x account asset request
    let u := (serve y other asset' request').final v
    u.pool.Exact (u.since (run.final u)) →
      (∀ receipt, run.answer v = .ok receipt → run.answer u = .ok receipt) ∧
      ∀ e, run.answer v = .error e → ¬ Short e → run.answer u = .error e := by
  intro run u hexact'
  obtain ⟨⟨extra, habreast⟩, hopened, hsound⟩ :=
    serve_abreast y hother asset' request' hpool hfaults hover hexact
  have hfollows := serve_follows habreast request hopened hpool.sound hsound hexact'
  refine ⟨fun receipt hrun => ?_, fun e hrun hshort => ?_⟩
  · obtain ⟨_, u', hanswer, rfl⟩ := Ends.of_ok hfollows (eq_ok_of_answer hrun)
    exact answer_of_ok hanswer
  · obtain ⟨u', hanswer⟩ := (Ends.of_error hfollows (eq_error_of_answer hrun)).resolve_left hshort
    exact answer_of_error hanswer

/-- One loop, of an account that would owe too much for its collateral. -/
def overdrawnRun (account : Address) : ExecM Receipt :=
  serve { operator := ⟨7⟩ } account ⟨1⟩ (.single 100 800)

/-- After a loop of the other account, settled or rolled back, two loops settle as they would have before it,
and an overdrawn loop is refused with the same figures. -/
theorem serve_undisturbed_delegated :
    (∃ receipt, sampleRun.answer delegatedVenue = .ok receipt ∧
      sampleRun.answer (delegatedRun.final delegatedVenue) = .ok receipt ∧
      sampleRun.answer ((overdrawnRun ⟨8⟩).final delegatedVenue) = .ok receipt) ∧
    (overdrawnRun ⟨7⟩).answer (delegatedRun.final delegatedVenue) =
      .error (.refused (.insufficientCollateral 800 720 956250000000000000 FixedPoint.wad)) := by
  have hpool : delegatedVenue.pool.Reachable := ⟨9, ⟨1⟩, _, rfl⟩
  have hother : (⟨8⟩ : Address) ≠ ⟨7⟩ := by decide
  obtain ⟨receipt, hreceipt⟩ : ∃ receipt, sampleRun.answer delegatedVenue = .ok receipt := by
    cases h : sampleRun.answer delegatedVenue with
    | ok receipt => exact ⟨receipt, rfl⟩
    | error e =>
      have hok : (sampleRun.answer delegatedVenue).toOption.isSome := by decide +kernel
      rw [h] at hok
      cases hok
  have hrefused : (overdrawnRun ⟨7⟩).answer delegatedVenue =
      .error (.refused (.insufficientCollateral 800 720 956250000000000000 FixedPoint.wad)) := by
    decide +kernel
  have hsettled : ∀ trap, delegatedRun.answer delegatedVenue ≠ .error (.trapped trap) := by
    intro trap
    cases trap <;> decide +kernel
  have hreverted : ∀ trap, (overdrawnRun ⟨8⟩).answer delegatedVenue ≠ .error (.trapped trap) := by
    intro trap
    cases trap <;> decide +kernel
  refine ⟨⟨receipt, hreceipt, ?_, ?_⟩, ?_⟩
  · exact (serve_undisturbed { operator := ⟨7⟩ } { operator := ⟨7⟩ } hother ⟨1⟩ ⟨1⟩
      (.planned 1000 ⟨2, 7000⟩) (.single 1000 600) hpool rfl hsettled (by decide +kernel)
      (by decide +kernel)).1 receipt hreceipt
  · exact (serve_undisturbed { operator := ⟨7⟩ } { operator := ⟨7⟩ } hother ⟨1⟩ ⟨1⟩
      (.planned 1000 ⟨2, 7000⟩) (.single 100 800) hpool rfl hreverted (by decide +kernel)
      (by decide +kernel)).1 receipt hreceipt
  · refine (serve_undisturbed { operator := ⟨7⟩ } { operator := ⟨7⟩ } hother ⟨1⟩ ⟨1⟩
      (.single 100 800) (.single 1000 600) hpool rfl hsettled (by decide +kernel)
      (by decide +kernel)).2 _ hrefused ?_
    rintro ⟨_, _, _, hcause⟩
    cases hcause

end Before
end Executor
end Gearing
