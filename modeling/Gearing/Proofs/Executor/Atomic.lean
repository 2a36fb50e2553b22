import Gearing.Proofs.Executor.Ending

/-!
All or nothing: a run that is refused before its commit leaves the pool that it found.
-/
namespace Gearing
open Gearing.Action Pool

theorem Venue.Halted.undoable {account : Address} {v u w : Venue} (hsound : v.pool.Sound)
    (hpath : v.Path [.checkpoint account] u)
    (hhalted : u.Halted (Op.Own account v.pool.lastTicket) w) (hexact : v.pool.Exact (v.since w)) :
    ∃ es, Undoable v.pool (v.pool.lastCheckpoint + 1) account es w.pool := by
  obtain ⟨ops, t, hown, hpath', hstill⟩ := hhalted
  have hwhole := hpath.trans hpath'
  obtain ⟨hclosed, hcarried⟩ := hwhole.pool.opened
  have hsince : v.since w = .checkpoint account :: ops :=
    Venue.since_eq (hstill.done.trans hwhole.done)
  rw [hsince] at hexact
  have hops : (v.pool.openJournal account).Exact ops := by
    have htail := hexact.2
    rwa [after_of_effect (.checkpoint hclosed)] at htail
  have hopened := hsound.openJournal hclosed
  rw [hstill.pool (hcarried.sound hopened).loansListed]
  exact (Undoable.start hsound hclosed).carried hopened hsound hown hcarried hops

namespace Executor

theorem Aborted.sameState {account : Address} {v u w : Venue} {cause : EngineError}
    (h : Aborted account v.pool.lastTicket (v.pool.lastCheckpoint + 1) u cause w)
    (hsound : v.pool.Sound) (hpath : v.Path [.checkpoint account] u)
    (hexact : v.pool.Exact (v.since w)) (hrevert : v.Clear .revertTo) :
    w.pool.SameState v.pool := by
  cases h with
  | @reverted _ t _ halted last clear effect =>
    have hsince : v.since w = v.since t ++ [.revert (v.pool.lastCheckpoint + 1)] := by
      obtain ⟨ops, r, -, hpath', hstill⟩ := halted
      have hdone := hstill.done.trans (hpath.trans hpath').done
      rw [Venue.since_eq hdone]
      refine Venue.since_eq ?_
      rw [last.done, hdone]
      simp
    rw [hsince, exact_append] at hexact
    obtain ⟨es, h⟩ := halted.undoable hsound hpath hexact.1
    exact h.revert (fun _ => hsound.loans_fresh) effect
  | @stuck _ _ t _ halted last same unreached =>
    have hclear : t.Clear .revertTo := by
      obtain ⟨ops, r, -, hpath', hstill⟩ := halted
      have hwhole := hpath.trans hpath'
      exact hrevert.of_same (hstill.faults.trans hwhole.faults)
        ((hstill.quiet _ (.inl rfl)).trans (hwhole.quiet _ (.inl rfl)))
    have hsince : v.since w = v.since t := by
      rw [Venue.since, Venue.since, last.done]
      rfl
    -- The journal is there to be reverted, so the revert does reach it.
    obtain ⟨es, h⟩ := halted.undoable hsound hpath (hsince ▸ hexact)
    have hjournal := h.journal
    rw [unreached hclear] at hjournal
    cases hjournal

/-- Exact arithmetic is all that a rollback needs: the pool is as it was, but for the numbers of the next
ticket and the next checkpoint. -/
theorem serve_refused_sameState (x : Executor) (account asset : Address) (request : Request)
    {v w : Venue} {cause : EngineError} (hpool : v.pool.Reachable)
    (hrun : serve x account asset request v = .error (.refused cause) w)
    (hexact : v.pool.Exact (v.since w))
    (hopen : .commit (v.pool.lastCheckpoint + 1) ∉ v.since w) (hrevert : v.Clear .revertTo) :
    w.pool.SameState v.pool := by
  have hsound := hpool.sound
  obtain ⟨s, hrefused⟩ := refuses_of_serve x account asset hrun
  cases hrefused with
  | @early _ u _ path still =>
    have hu : u.pool = v.pool := path.pool.history_eq.symm
    rw [still.pool (hu ▸ hsound.loansListed), hu]
    exact ⟨.refl _, fun _ => rfl⟩
  | unread path last =>
    have hsince := Venue.since_eq (last.done.trans path.done)
    rw [hsince] at hopen
    exact absurd (List.mem_cons_of_mem _ (List.mem_append_right _ List.mem_cons_self)) hopen
  | aborted path aborted => exact aborted.sameState hsound path hexact hrevert

/-- A pool with one reserve that has something to lend, which is native coin wrapped. -/
def samplePool : Pool :=
  history { feeBps := 9, wrappedNative := ⟨1⟩ }
    [.list { asset := ⟨1⟩, symbol := "A", decimals := 18, ltvBps := 8000,
             liquidationThresholdBps := 8500 },
     .supply ⟨1⟩ 1000000]

/-- The pool, reached by an executor whose calls may be scripted to fail. -/
def sampleVenue (faults : List Fault) : Venue := { pool := samplePool, faults }

def sampleRun : ExecM Receipt := serve { operator := ⟨7⟩ } ⟨7⟩ ⟨1⟩ (.planned 1000 ⟨2, 7000⟩)

/-- The second borrow fails with three tranches under way. -/
theorem serve_refused_sameState_borrow :
    (sampleRun.final (sampleVenue [⟨.borrow, 2, .native .injected⟩])).pool.SameState samplePool := by
  have hpool : samplePool.Reachable := ⟨9, ⟨1⟩, _, rfl⟩
  have hrun : sampleRun.answer (sampleVenue [⟨.borrow, 2, .native .injected⟩]) =
      .error (.refused (.pool (.native .injected))) := by decide +kernel
  exact serve_refused_sameState { operator := ⟨7⟩ } ⟨7⟩ ⟨1⟩ _ hpool (eq_error_of_answer hrun)
    (by decide +kernel) (by decide +kernel) (by decide +kernel)

end Executor
end Gearing
