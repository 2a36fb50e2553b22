import Gearing.Proofs.Executor.Ending

/-!
The phases of a run: its opening, its execution under the checkpoint and its closing. A run under its checkpoint
ends as its execution does, since the checkpoint is still open when the execution is over.
-/
namespace Gearing
open Gearing.Action Pool Flash

namespace Venue
variable {v : Venue} {id : Nat} {j : Journal}

theorem commit_of_journal (hclear : v.Clear .commit) (hj : v.pool.journals.get? id = some j) :
    commit id v = .ok () { v with
      calls := .commit :: v.calls
      pool := v.pool.close id j.account
      done := .commit id :: v.done } :=
  perform_done_of_clear hclear rfl (.commit hj)

theorem revert_of_journal (hclear : v.Clear .revertTo) (hj : v.pool.journals.get? id = some j) :
    revert id v = .ok () { v with
      calls := .revertTo :: v.calls
      pool := (v.pool.close id j.account).undoAll j.entries
      done := .revert id :: v.done } :=
  perform_done_of_clear hclear rfl (.revert hj)

end Venue

namespace Executor
open Venue
variable {x : Executor} {account asset : Address} {s : Schedule}

theorem runSchedule_of_opened {id : Nat} {v u : Venue} (plan : Option Plan)
    (hopened : opening x account asset s v = .ok id u) : runSchedule x account asset s plan v =
      (underCheckpoint id (own.execute x account asset s) >>= own.report account asset s plan) u := by
  rw [runSchedule_eq, run_bind, hopened]

section Executed
variable {act : RunM HealthReport} {v : Venue} {n : Nat} {run : Run}

theorem final_carryOut (act : RunM HealthReport) (v : Venue) :
    (carryOut act).final v = (act.final { venue := v }).venue := by
  simp only [final, carryOut, Action.attempt]
  rcases act { venue := v } with ⟨_, _⟩ | ⟨_ | _, _⟩ <;> rfl

theorem underCheckpoint_of_ok {health : HealthReport} (hrun : act { venue := v } = .ok health run) :
    underCheckpoint n act v = conclude n run health run.venue := by
  have hcarried : carryOut act v = .ok ⟨.ok health, run⟩ run.venue := by
    simp only [carryOut, Action.attempt, hrun]
  rw [underCheckpoint, run_bind, hcarried]
  rfl

theorem underCheckpoint_of_refused {cause : EngineError}
    (hrun : act { venue := v } = .error (.refused cause) run) :
    underCheckpoint n act v = abort n run cause run.venue := by
  have hcarried : carryOut act v = .ok ⟨.error cause, run⟩ run.venue := by
    simp only [carryOut, Action.attempt, hrun]
  rw [underCheckpoint, run_bind, hcarried]
  rfl

theorem underCheckpoint_of_trapped {trap : Trap}
    (hrun : act { venue := v } = .error (.trapped trap) run) :
    underCheckpoint n act v = .error (.trapped trap) run.venue := by
  have hcarried : carryOut act v = .error (.trapped trap) run.venue := by
    simp only [carryOut, Action.attempt, hrun]
  rw [underCheckpoint, run_bind, hcarried]

variable (x account asset s) in
theorem execute_keeps (hfaults : v.faults = []) (hsound : v.pool.Sound)
    (hopen : (v.pool.journals.get? n).isSome) :
    (own.execute x account asset s).Ends
      (fun _ r => r.venue.faults = [] ∧ (r.venue.pool.journals.get? n).isSome ∧ r.stage = .repaying)
      (fun _ r => r.venue.faults = [] ∧ (r.venue.pool.journals.get? n).isSome) { venue := v } := by
  refine (execute_ends x account asset v.pool.lastTicket s { venue := v }).mono
    (fun _ r h => ?_) (fun _ r h => ?_)
  · obtain ⟨hpath, -, hstage⟩ := h
    have hfresh : v.pool.lastTicket < (v.pool.nextTicket asset s.totalBorrow).id := Nat.lt_succ_self _
    have hown := script_own x.operator account asset s hfresh
    exact ⟨hpath.faults.trans hfaults, by rwa [hpath.pool.isSome_journal hown n], hstage⟩
  · obtain ⟨ops, u, hown, hpath, hstill⟩ := h
    have hlisted := (hpath.pool.sound hsound).loansListed
    refine ⟨hstill.faults.trans (hpath.faults.trans hfaults), ?_⟩
    rwa [hstill.pool hlisted, hpath.pool.isSome_journal hown n]

theorem conclude_of_commit {w : Venue} (health : HealthReport) (hcommit : Venue.commit n v = .ok () w)
    (hstage : run.stage = .repaying) :
    conclude n run health v = .ok ⟨.ok health, run.enter .settled⟩ w := by
  simp only [conclude, run_bind, Action.attempt, onVenue, Action.relabel, hcommit, hstage]
  rfl

theorem abort_of_revert {w : Venue} (cause : EngineError) (hrevert : Venue.revert n v = .ok () w) :
    abort n run cause v = .ok ⟨.error cause, run.enter .aborted⟩ w := by
  simp only [abort, run_bind, Action.attempt, hrevert]
  rfl

theorem closing_of_error {e : Halt EngineError} (plan : Option Plan) (hfaults : v.faults = [])
    (hsound : v.pool.Sound) (hopen : (v.pool.journals.get? n).isSome)
    (hrun : own.execute x account asset s { venue := v } = .error e run) :
    ∃ w, (underCheckpoint n (own.execute x account asset s) >>= own.report account asset s plan) v = .error e w ∧
      ∀ cause, e = .refused cause → w.done = .revert n :: run.venue.done := by
  rw [run_bind]
  cases e with
  | trapped trap => exact ⟨run.venue, by rw [underCheckpoint_of_trapped hrun], nofun⟩
  | refused cause =>
    obtain ⟨hkept, hjournal⟩ := (execute_keeps x account asset s hfaults hsound hopen).of_error hrun
    obtain ⟨j, hj⟩ := Option.isSome_iff_exists.mp hjournal
    have hrevert := revert_of_journal (clear_of_faults hkept _) hj
    generalize hw : ({ run.venue with calls := _, pool := _, done := _ } : Venue) = w at hrevert
    refine ⟨w, ?_, fun _ _ => by rw [← hw]⟩
    rw [underCheckpoint_of_refused hrun, abort_of_revert cause hrevert]
    rfl

end Executed

end Executor
end Gearing
