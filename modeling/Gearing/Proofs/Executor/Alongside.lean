import Gearing.Proofs.Executor.InStep
import Gearing.Proofs.Executor.Phases

/-!
Whole runs side by side, from their preconditions to their receipts.
-/
namespace Gearing
open Gearing.Action Pool Flash

namespace Executor
open Venue Run
variable {x : Executor} {account asset : Address} {s : Schedule}

section Closing

instance (account : Address) : Extends id (Venue.checkpoint account) :=
  inferInstanceAs (Extends id (perform _ _ _))

instance (account asset : Address) : Extends id (Venue.position account asset) :=
  inferInstanceAs (Extends id (call _ _))

instance {α : Type} (act : VenueM α) [Extends id act] : Extends id (onVenue act) :=
  inferInstanceAs (Extends id (act.relabel _))

instance (plan : Option Plan) (ending : Ending) :
    Extends id (own.report account asset s plan ending) := by
  obtain ⟨cause | health, run⟩ := ending
  · exact inferInstanceAs (Extends id (Action.refuse cause))
  · simp only [report]
    infer_instance

instance (n : Nat) (run : Run) (cause : EngineError) : Extends id (abort n run cause) := by
  unfold abort
  refine Extends.bind ?_ fun r => ?_
  · exact inferInstanceAs (Extends id (Action.attempt (perform _ _ _)))
  · cases r <;> exact inferInstanceAs (Extends id (pure _))

instance (n : Nat) (run : Run) (health : HealthReport) : Extends id (conclude n run health) := by
  unfold conclude
  refine Extends.bind ?_ fun r => ?_
  · exact inferInstanceAs (Extends id (Action.attempt (Action.relabel _ (perform _ _ _))))
  · cases r with
    | error cause => exact inferInstanceAs (Extends id (abort n run cause))
    | ok _ => simp only; infer_instance

instance (n : Nat) (ending : Ending) : Extends id (afterwards n ending) := by
  obtain ⟨cause | health, run⟩ := ending
  · exact inferInstanceAs (Extends id (abort n run cause))
  · exact inferInstanceAs (Extends id (conclude n run health))

instance (act : RunM HealthReport) [hact : Extends Run.venue act] : Extends id (carryOut act) :=
  ⟨fun v => by
    rw [id, id, final_carryOut]
    exact hact.suffix { venue := v }⟩

instance (n : Nat) (act : RunM HealthReport) [Extends Run.venue act] : Extends id (underCheckpoint n act) := by
  unfold underCheckpoint
  infer_instance

end Closing

section Runs
variable {base v v' : Venue} {extra : Address → Word}

theorem asked_matches {α : Type} {act act' : PoolM α} {S : α → α → Prop} (h : base.Abreast account extra v v')
    (c : Call) (hact : Matches Pool.Short act act'
      (fun a p a' q => p = v.pool ∧ q = v'.pool ∧ S a a') v.pool v'.pool) :
    Matches Short (onVenue (call c act)) (onVenue (call c act'))
      (fun a w a' w' => S a a' ∧ (w.pool = v.pool ∧ w'.pool = v'.pool) ∧
        base.Abreast account extra w w') v v' :=
  (query_matches h c hact).relabel EngineError.ofPool fun _ => short_of_pool

theorem report_matches {run run' : Run} (h : base.Abreast account extra v v') (plan : Option Plan)
    (health : HealthReport) (hsteps : run'.steps = run.steps) :
    Matches Short (own.report account asset s plan ⟨.ok health, run⟩)
      (own.report account asset s plan ⟨.ok health, run'⟩)
      (fun receipt _ receipt' _ => receipt' = receipt) v v' := by
  refine (asked_matches h .position (position_matches h.pool asset)).bind ?_
  rintro position w _ w' ⟨rfl, -, hread⟩
  refine matches_get_bind (matches_pure ?_)
  dsimp only [own]
  rw [hread.flashFee, hsteps]

theorem closing_of_ok {run run' : Run} (h : base.Abreast account extra run.venue run'.venue)
    (plan : Option Plan) {n n' : Nat} {health : HealthReport}
    (hrun : own.execute x account asset s { venue := v } = .ok health run)
    (hrun' : own.execute x account asset s { venue := v' } = .ok health run')
    (hstage : run.stage = .repaying) (hstage' : run'.stage = .repaying)
    (hopen : (run.venue.pool.journals.get? n).isSome)
    (hopen' : (run'.venue.pool.journals.get? n').isSome) (hsteps : run'.steps = run.steps) :
    Matches Short (underCheckpoint n (own.execute x account asset s) >>= own.report account asset s plan)
      (underCheckpoint n' (own.execute x account asset s) >>= own.report account asset s plan)
      (fun receipt _ receipt' _ => receipt' = receipt) v v' := by
  obtain ⟨j, hj⟩ := Option.isSome_iff_exists.mp hopen
  obtain ⟨j', hj'⟩ := Option.isSome_iff_exists.mp hopen'
  have hcommit := conclude_of_commit health (commit_of_journal (clear_of_faults h.faults _) hj) hstage
  have hcommit' := conclude_of_commit health (commit_of_journal (clear_of_faults h.faults' _) hj') hstage'
  rw [← underCheckpoint_of_ok hrun] at hcommit
  rw [← underCheckpoint_of_ok hrun'] at hcommit'
  obtain ⟨ops, hleads⟩ := h.leads
  have hricher := h.pool
  refine (matches_of_ok (R := fun ending w ending' w' => base.Abreast account extra w w' ∧
    ending = ⟨.ok health, run.enter .settled⟩ ∧ ending' = ⟨.ok health, run'.enter .settled⟩)
    hcommit hcommit' ⟨⟨?_, h.faults, h.faults', h.quoted, ops ++ [.commit n'], ?_⟩, rfl, rfl⟩).bind ?_
  · exact ⟨hricher.reserves, hricher.fits, hricher.balance, hricher.allowance, hricher.feeBps⟩
  · exact hleads.trans ⟨rfl, .single (.commit hj'), rfl, rfl⟩
  · rintro _ w _ w' ⟨hboth, rfl, rfl⟩
    exact report_matches hboth plan health hsteps

theorem closing_follows (h : base.Abreast account extra v v') (plan : Option Plan) {n n' : Nat}
    (hsound : v.pool.Sound) (hsound' : v'.pool.Sound) (hopen : (v.pool.journals.get? n).isSome)
    (hopen' : (v'.pool.journals.get? n').isSome) :
    base.Follows Short id (underCheckpoint n (own.execute x account asset s) >>= own.report account asset s plan)
      (underCheckpoint n' (own.execute x account asset s) >>= own.report account asset s plan)
      (fun receipt _ receipt' _ => receipt' = receipt) v v' := by
  intro hexact
  have hstart : InStep base account extra v.pool.loans v'.pool.loans { venue := v } { venue := v' } :=
    ⟨h, rfl, rfl, rfl, rfl, rfl⟩
  have hcarried : (id ((carryOut (own.execute x account asset s)).final v')).done <:+
      (id ((underCheckpoint n' (own.execute x account asset s)).final v')).done := by
    exact suffix_bind _ (fun _ => inferInstance) v'
  have hclosed : (id ((underCheckpoint n' (own.execute x account asset s)).final v')).done <:+
      (id ((underCheckpoint n' (own.execute x account asset s) >>= own.report account asset s plan).final v')).done :=
    suffix_bind _ (fun _ => inferInstance) v'
  -- The commit only adds to what the execution has carried out, so the execution is exact as well.
  have hdone := hcarried.trans hclosed
  rw [id, final_carryOut] at hdone
  have hexecute := execute_follows x asset s hstart (hexact.of_suffix hdone)
  have hkept := execute_keeps x account asset s h.faults hsound hopen
  have hkept' := execute_keeps x account asset s h.faults' hsound' hopen'
  rw [Matches, Ends] at hexecute
  cases hrun : own.execute x account asset s { venue := v } with
  | ok health run =>
    rw [hrun] at hexecute
    obtain ⟨health, run', hrun', rfl, habreast, hsteps⟩ := hexecute
    obtain ⟨-, hjournal, hstage⟩ := hkept.of_ok hrun
    obtain ⟨-, hjournal', hstage'⟩ := hkept'.of_ok hrun'
    exact closing_of_ok habreast plan hrun hrun' hstage hstage' hjournal hjournal' hsteps
  | error e run =>
    rw [hrun] at hexecute
    obtain ⟨w, hw, -⟩ := closing_of_error plan h.faults hsound hopen hrun
    rcases hexecute with hshort | ⟨run', hrun'⟩
    · exact matches_of_excused hw hshort
    · obtain ⟨w', hw', -⟩ := closing_of_error plan h.faults' hsound' hopen' hrun'
      exact matches_of_error hw hw'

theorem checkDelegation_matches (h : base.Abreast account extra v v') (required : Word) :
    Matches Short (checkDelegation x account asset required) (checkDelegation x account asset required)
      (fun _ w _ w' => (w.pool = v.pool ∧ w'.pool = v'.pool) ∧ base.Abreast account extra w w') v v' := by
  unfold checkDelegation
  split
  · exact matches_pure ⟨⟨rfl, rfl⟩, h⟩
  refine (asked_matches h .borrowAllowance (borrowAllowance_matches h.pool x.operator asset)).bind ?_
  rintro available w _ w' ⟨rfl, hpools, hasked⟩
  split
  · exact matches_refuse
  · exact matches_pure ⟨hpools, hasked⟩

theorem checkPreconditions_matches (h : base.Abreast account extra v v') :
    Matches Short (checkPreconditions x account asset s) (checkPreconditions x account asset s)
      (fun _ w _ w' => (w.pool = v.pool ∧ w'.pool = v'.pool) ∧ base.Abreast account extra w w') v v' := by
  unfold checkPreconditions
  have hreserve : Matches Pool.Short (Pool.reserve asset) (Pool.reserve asset)
      (fun r p r' q => p = v.pool ∧ q = v'.pool ∧ r' = { r with liquidity := r.liquidity + extra asset })
      v.pool v'.pool :=
    (reserve_matches h.pool asset).mono fun _ _ _ _ hr => ⟨hr.1, hr.2.1, hr.2.2.2⟩
  refine (asked_matches h .reserve hreserve).bind ?_
  rintro r w _ w' ⟨rfl, ⟨hp, hq⟩, hasked⟩
  show Matches Short (if !r.isBorrowable then _ else _) (if !r.isBorrowable then _ else _) _ w w'
  split
  · exact matches_refuse
  split
  · exact matches_refuse
  split
  · exact matches_refuse
  rw [← hp, ← hq]
  exact checkDelegation_matches hasked s.totalBorrow

theorem opening_follows (h : base.Abreast account extra v v')
    (hopened : v'.pool.opened.get? account = none ↔ v.pool.opened.get? account = none) :
    base.Follows Short id (opening x account asset s) (opening x account asset s)
      (fun n u n' u' => (v.pool.Effect (.checkpoint account) (.checkpoint n) u.pool ∧
          v'.pool.Effect (.checkpoint account) (.checkpoint n') u'.pool) ∧
        base.Abreast account extra u u') v v' := by
  rw [opening]
  refine Follows.bind (fun _ => checkPreconditions_matches h) ?_
  rintro _ w _ w' ⟨⟨hp, hq⟩, hadmitted⟩
  have hopen : Matches Pool.Short (Pool.checkpoint account) (Pool.checkpoint account)
      (fun n p n' q => (w.pool.Effect (.checkpoint account) (.checkpoint n) p ∧
          w'.pool.Effect (.checkpoint account) (.checkpoint n') q) ∧
        (Op.Exact (.checkpoint account) w'.pool → Richer account extra p q)) w.pool w'.pool :=
    (checkpoint_matches hadmitted.pool (by rw [hp, hq]; exact hopened)).mono
      fun _ _ _ _ h => ⟨⟨h.1, h.2.1⟩, fun _ => h.2.2⟩
  rw [← hp, ← hq]
  exact (perform_follows hadmitted .checkpoint (checkpoint_does account _) hopen).relabel
    EngineError.ofPool fun _ => short_of_pool

theorem runSchedule_follows (h : base.Abreast account extra v v') (plan : Option Plan)
    (hopened : v'.pool.opened.get? account = none ↔ v.pool.opened.get? account = none)
    (hsound : v.pool.Sound) (hsound' : v'.pool.Sound) :
    base.Follows Short id (runSchedule x account asset s plan) (runSchedule x account asset s plan)
      (fun receipt _ receipt' _ => receipt' = receipt) v v' := by
  rw [runSchedule_eq]
  refine (opening_follows h hopened).bind ?_
  rintro n u n' u' ⟨⟨heffect, heffect'⟩, hboth⟩
  refine closing_follows hboth plan ?_ ?_ heffect.isSome_opened heffect'.isSome_opened
  · exact heffect.sound hsound
  · exact heffect'.sound hsound'

theorem serve_follows (h : base.Abreast account extra v v') (request : Request)
    (hopened : v'.pool.opened.get? account = none ↔ v.pool.opened.get? account = none)
    (hsound : v.pool.Sound) (hsound' : v'.pool.Sound) :
    base.Follows Short id (serve x account asset request) (serve x account asset request)
      (fun receipt _ receipt' _ => receipt' = receipt) v v' :=
  serve_of_runSchedule x account asset (C := fun act => base.Follows Short id act act _ v v') request
    (fun _ plan _ => runSchedule_follows h plan hopened hsound hsound') fun _ _ => matches_refuse

end Runs

end Executor
end Gearing
