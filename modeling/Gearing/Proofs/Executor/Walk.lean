import Gearing.Proofs.Executor.Committed
import Gearing.Proofs.Executor.Progress

/-!
The stages that a run goes through and the journal that it keeps. Every step of a run enters the stages that it
stands for and no other, in order, so a run that stops has gone a part of the way, and one that settles has gone all
of it. The stage of a round carries its number, which is what makes the next one legal.
-/
namespace Gearing
open Gearing.Action Pool Flash

namespace Stage

/-- The stages of `n` rounds, the first of them numbered `i`. -/
def loops (i n : Nat) : List Stage := (List.range' i n).map fun k => .looping (UInt32.ofNat k)

def walk (n : Nat) : List Stage := [idle, flashAcquired] ++ loops 1 n ++ [repaying, settled]

theorem loops_succ (i n : Nat) : loops i (n + 1) = looping (UInt32.ofNat i) :: loops (i + 1) n := rfl

end Stage

namespace Schedule

/-- Each tranche but the last one is supplied and the next one borrowed, in rounds that are numbered from `i` on. -/
def roundSteps (i : Nat) (each : Word) (borrows : List Word) : List Step :=
  (((each :: borrows).zip borrows).zipIdx i).flatMap fun ((supplied, borrowed), k) =>
    [.deposit k supplied, .borrow (k + 1) borrowed]

/-- What a run notes down from its flash liquidity to the repayment. -/
def journal (s : Schedule) (fee healthFactor : Word) : List Step :=
  .flashAcquired s.totalBorrow fee :: roundSteps 0 s.principal s.borrows ++
    [.deposit s.loopCount (s.borrows.getLastD s.principal), .healthChecked healthFactor,
      .flashRepaid (s.totalBorrow + fee)]

theorem roundSteps_cons (i : Nat) (each next : Word) (rest : List Word) :
    roundSteps i each (next :: rest) =
      .deposit i each :: .borrow (i + 1) next :: roundSteps (i + 1) next rest := rfl

end Schedule

theorem Executor.lastTranche_eq (each : Word) (borrows : List Word) :
    lastTranche each borrows = borrows.getLastD each := by
  induction borrows generalizing each with
  | nil => rfl
  | cons next rest ih =>
    rw [lastTranche, ih]
    cases rest <;> rfl

/-- The cause is a stage that may not follow, also where the run could not be rolled back after it. -/
def EngineError.IllegalStage : EngineError → Prop
  | .invalid (.illegalStage ..) => True
  | .rollbackFailed cause _ => cause.IllegalStage
  | _ => False

def Halt.IllegalStage : Halt EngineError → Prop
  | .refused cause => cause.IllegalStage
  | .trapped _ => False

theorem Halt.not_illegalStage_relabel (e : Halt PoolError) :
    ¬ (e.relabel EngineError.ofPool).IllegalStage := by
  rcases e with cause | _
  · cases cause <;> exact id
  · exact id

namespace Run

/-- From `r` to `t` the run enters these stages and notes these steps. -/
structure Walks (r : Run) (stages : List Stage) (steps : List Step) (t : Run) : Prop where
  trail : t.trail = r.trail ++ stages
  steps : t.steps.reverse = r.steps.reverse ++ steps

/-- A run that stops somewhere among these stages, for another cause than a stage that may not follow. -/
def Stops (r : Run) (stages : List Stage) (e : Halt EngineError) (t : Run) : Prop :=
  ¬ e.IllegalStage ∧ ∃ entered, entered <+: stages ∧ t.trail = r.trail ++ entered

variable {r t u : Run} {l m : List Stage} {as bs : List Step} {e : Halt EngineError}

theorem Walks.trans (h : r.Walks l as t) (h' : t.Walks m bs u) : r.Walks (l ++ m) (as ++ bs) u where
  trail := by rw [h'.trail, h.trail, List.append_assoc]
  steps := by rw [h'.steps, h.steps, List.append_assoc]

theorem Walks.stage (h : r.Walks [] as t) : t.stage = r.stage := by
  have htrail := h.trail
  rw [List.append_nil, Run.trail, Run.trail, List.reverse_inj] at htrail
  exact (List.cons.inj htrail).1

theorem walks_enter (r : Run) (next : Stage) : r.Walks [next] [] (r.enter next) :=
  ⟨r.trail_enter next, (List.append_nil _).symm⟩

theorem walks_onVenue (r : Run) (v : Venue) : r.Walks [] [] { r with venue := v } :=
  ⟨(List.append_nil _).symm, (List.append_nil _).symm⟩

theorem Stops.here (he : ¬ e.IllegalStage) (hsame : t.trail = r.trail) : r.Stops l e t :=
  ⟨he, [], List.nil_prefix, by rw [hsame, List.append_nil]⟩

theorem Stops.after (h : r.Walks l as t) (h' : t.Stops m e u) : r.Stops (l ++ m) e u := by
  obtain ⟨he, entered, hentered, htrail⟩ := h'
  exact ⟨he, l ++ entered, (List.prefix_append_right_inj l).mpr hentered,
    by rw [htrail, h.trail, List.append_assoc]⟩

theorem Stops.extend (h : r.Stops l e t) (m : List Stage) : r.Stops (l ++ m) e t := by
  obtain ⟨he, entered, hentered, htrail⟩ := h
  exact ⟨he, entered, hentered.trans (List.prefix_append _ _), htrail⟩

/-- One part of a run after another: where the second one stops, the first one has gone all of its way. -/
theorem Stops.bind {α β : Type} {act : RunM α} {f : α → RunM β} {steps : α → List Step}
    {P : α → Run → Prop} {Q : β → Run → Prop}
    (h : act.Ends (fun a t => r.Walks l (steps a) t ∧ P a t) (fun e t => r.Stops l e t) r)
    (hf : ∀ a t, r.Walks l (steps a) t → P a t → (f a).Ends Q (fun e u => t.Stops m e u) t) :
    (act >>= f).Ends Q (fun e u => r.Stops (l ++ m) e u) r := by
  rw [ends_bind]
  refine h.mono (fun a t ha => ?_) (fun e t he => he.extend m)
  exact (hf a t ha.1 ha.2).mono (fun _ _ h => h) (fun _ _ h => h.after ha.1)

theorem onVenue_walks {α : Type} (act : VenueM α) (r : Run) :
    (onVenue act).Ends (fun _ t => r.Walks [] [] t ∧ t.stage = r.stage) (fun e t => r.Stops [] e t) r :=
  onVenue_ends.mpr (.of_forall (fun _ v => ⟨r.walks_onVenue v, rfl⟩)
    (fun e _ => .here e.not_illegalStage_relabel rfl))

theorem spend_walks (amount : Word) (r : Run) :
    (spend amount).Ends (fun _ t => r.Walks [] [] t ∧ t.stage = r.stage) (fun e t => r.Stops [] e t) r := by
  simp only [spend, ends_bind, ends_get]
  split
  · exact ⟨⟨(List.append_nil _).symm, (List.append_nil _).symm⟩, rfl⟩
  · exact .here id rfl

theorem note_walks (step : Step) (r : Run) :
    (note step).Ends (fun _ t => r.Walks [] [step] t ∧ t.stage = r.stage) (fun _ _ => False) r :=
  ⟨⟨(List.append_nil _).symm, List.reverse_cons⟩, rfl⟩

theorem advance_walks {next : Stage} {r : Run} (hlegal : r.stage.leadsTo next = .ok true) :
    (advance next).Ends (fun _ t => r.Walks [next] [] t ∧ t.stage = next) (fun e t => r.Stops [next] e t) r :=
  advance_goes hlegal ⟨r.walks_enter next, rfl⟩

end Run

namespace Executor
open Run
variable (x : Executor) (account asset : Address)

theorem supplyTranche_walks (i : Nat) (amount : Word) (r : Run) :
    (supplyTranche account asset i amount).Ends
      (fun _ t => r.Walks [] [.deposit i amount] t ∧ t.stage = r.stage) (fun e t => r.Stops [] e t) r := by
  rw [supplyTranche]
  refine Stops.bind (m := []) (onVenue_walks _ r) fun _ r₁ h₁ hstage₁ => ?_
  refine Stops.bind (m := []) (spend_walks amount r₁) fun _ r₂ h₂ hstage₂ => ?_
  refine (note_walks _ r₂).mono (fun _ t h => ?_) (fun _ _ h => h.elim)
  exact ⟨h₁.trans (h₂.trans h.1), h.2.trans (hstage₂.trans hstage₁)⟩

theorem borrowTranche_walks (i : Nat) (amount : Word) (r : Run) :
    (borrowTranche x account asset i amount).Ends
      (fun _ t => r.Walks [] [.borrow i amount] t ∧ t.stage = r.stage) (fun e t => r.Stops [] e t) r := by
  rw [borrowTranche]
  refine Stops.bind (m := []) (onVenue_walks _ r) fun _ r₁ h₁ hstage₁ => ?_
  have hreceived : r₁.Walks [] [] { r₁ with cash := r₁.cash + amount } :=
    ⟨(List.append_nil _).symm, (List.append_nil _).symm⟩
  rw [receive, ends_bind, ends_modify]
  refine (note_walks _ _).mono (fun _ t h => ?_) (fun _ _ h => h.elim)
  exact ⟨h₁.trans (hreceived.trans h.1), h.2.trans hstage₁⟩

/-- The number of the round is in the stage, so it is the induction that knows which stage comes next. -/
theorem rounds_walks (i : Nat) (each : Word) (borrows : List Word) {r : Run} (hstage : r.stage = .round i)
    (hbound : i + borrows.length < 2 ^ 32) :
    (rounds x account asset i each borrows).Ends
      (fun last t => r.Walks (Stage.loops (i + 1) borrows.length) (Schedule.roundSteps i each borrows) t ∧
        t.stage = .round (i + borrows.length) ∧ last = lastTranche each borrows)
      (fun e t => r.Stops (Stage.loops (i + 1) borrows.length) e t) r := by
  induction borrows generalizing i each r with
  | nil => exact ⟨⟨(List.append_nil _).symm, (List.append_nil _).symm⟩, hstage, rfl⟩
  | cons next rest ih =>
    rw [List.length_cons] at hbound ⊢
    have hlegal : r.stage.leadsTo (.looping (UInt32.ofNat (i + 1))) = .ok true := by
      rw [hstage]
      exact Stage.round_leadsTo (by omega)
    rw [rounds, Stage.loops_succ, Schedule.roundSteps_cons]
    refine Stops.bind (l := [_]) (advance_walks hlegal) fun _ r₁ h₁ hstage₁ => ?_
    refine Stops.bind (l := []) (supplyTranche_walks account asset i each r₁) fun _ r₂ h₂ hstage₂ => ?_
    refine Stops.bind (l := []) (borrowTranche_walks x account asset (i + 1) next r₂) fun _ r₃ h₃ hstage₃ => ?_
    have hround : r₃.stage = .round (i + 1) := hstage₃.trans (hstage₂.trans hstage₁)
    refine (ih (i + 1) next hround (by omega)).mono (fun last t h => ?_) (fun _ _ h => h)
    obtain ⟨hwalks, hstage', hlast⟩ := h
    refine ⟨h₁.trans (h₂.trans (h₃.trans hwalks)), ?_, hlast⟩
    rw [hstage']
    congr 1
    omega

theorem fund_walks (s : Schedule) {r : Run} (hstage : r.stage = .idle) :
    (own.fund account asset s).Ends
      (fun t r' => r.Walks [.flashAcquired] [.flashAcquired t.amount t.fee] r' ∧ r'.stage = .round 0)
      (fun e r' => r.Stops [.flashAcquired] e r') r := by
  rw [fund, ends_bind, ends_get, ends_bind, ends_modify]
  have hcash : r.Walks [] [] { r with cash := s.principal + r.venue.flashFee s.totalBorrow } :=
    ⟨(List.append_nil _).symm, (List.append_nil _).symm⟩
  refine (Stops.bind (l := []) (onVenue_walks _ _) fun t r₁ h₁ hstage₁ => ?_).mono (fun _ _ h => h)
    (fun _ _ h => h.after hcash)
  rw [ends_bind, receive, ends_modify]
  have hreceived : r₁.Walks [] [] { r₁ with cash := r₁.cash + t.amount } :=
    ⟨(List.append_nil _).symm, (List.append_nil _).symm⟩
  have hlegal : r₁.stage.leadsTo .flashAcquired = .ok true := by
    rw [hstage₁, show Run.stage _ = .idle from hstage]
    rfl
  refine (Stops.bind (m := []) (advance_walks (r := { r₁ with cash := r₁.cash + t.amount }) hlegal)
    fun _ r₂ h₂ hstage₂ => ?_).mono (fun _ _ h => h) (fun _ _ h => h.after hreceived)
  refine (Stops.bind (m := []) ((note_walks (.flashAcquired t.amount t.fee) r₂).mono (fun _ _ h => h)
    (fun _ _ h => h.elim)) fun _ r₃ h₃ hstage₃ => ?_)
  exact ⟨hcash.trans (h₁.trans (hreceived.trans (h₂.trans h₃))), hstage₃.trans hstage₂⟩

theorem judge_walks (borrowed : Bool) (r : Run) :
    (judge x account borrowed).Ends
      (fun health t => r.Walks [] [.healthChecked health.healthFactor] t ∧ t.stage = r.stage)
      (fun e t => r.Stops [] e t) r := by
  rw [judge]
  refine Stops.bind (m := []) (onVenue_walks _ r) fun snapshot r₁ h₁ hstage₁ => ?_
  rw [ends_bind, ends_ofExcept]
  refine ⟨fun health _ => ?_, fun e hcheck => .here ?_ rfl⟩
  · rw [ends_bind]
    refine (note_walks _ r₁).mono (fun _ t h => ?_) (fun _ _ h => h.elim)
    exact ⟨h₁.trans h.1, h.2.trans hstage₁⟩
  · -- The guard refuses for the collateral or traps.
    rw [Guard.check] at hcheck
    split at hcheck
    · cases hcheck
      exact id
    · split at hcheck
      · cases hcheck
      · cases hcheck
        exact id

theorem settle_walks (ticket : Ticket) (r : Run) :
    (own.settle ticket).Ends (fun _ t => r.Walks [] [.flashRepaid ticket.owed] t ∧ t.stage = r.stage)
      (fun e t => r.Stops [] e t) r := by
  rw [settle]
  refine Stops.bind (m := []) (spend_walks _ r) fun _ r₁ h₁ hstage₁ => ?_
  rw [ends_bind, ends_get]
  split
  · exact .here id rfl
  refine Stops.bind (m := []) (onVenue_walks _ r₁) fun _ r₂ h₂ hstage₂ => ?_
  refine (note_walks _ r₂).mono (fun _ t h => ?_) (fun _ _ h => h.elim)
  exact ⟨h₁.trans (h₂.trans h.1), h.2.trans (hstage₂.trans hstage₁)⟩

def executionStages (n : Nat) : List Stage := .flashAcquired :: Stage.loops 1 n ++ [.repaying]

theorem execute_walks (s : Schedule) {r : Run} (hstage : r.stage = .idle) (hbound : s.loopCount < 2 ^ 32) :
    (own.execute x account asset s).Ends
      (fun health t => r.Walks (executionStages s.loopCount)
        (s.journal (r.venue.pool.flashFee s.totalBorrow) health.healthFactor) t ∧ t.stage = .repaying)
      (fun e t => r.Stops (executionStages s.loopCount) e t) r := by
  have hfund : (own.fund account asset s).Ends
      (fun t r' => r.Walks [.flashAcquired] [.flashAcquired t.amount t.fee] r' ∧
        r'.stage = .round 0 ∧ t = r.venue.pool.nextTicket asset s.totalBorrow)
      (fun e r' => r.Stops [.flashAcquired] e r') r :=
    ((fund_walks account asset s hstage).and (fund_ends account asset 0 s r)).mono
      (fun _ _ h => ⟨h.1.1, h.1.2, h.2.1⟩) (fun _ _ h => h.1)
  rw [execute, executionStages, List.cons_append]
  refine Stops.bind (l := [_]) hfund fun ticket r₁ h₁ hfunded => ?_
  obtain ⟨hstage₁, rfl⟩ := hfunded
  refine Stops.bind (rounds_walks x account asset 0 s.principal s.borrows hstage₁ (by rw [Nat.zero_add]; exact hbound))
    fun last r₂ h₂ hrounds => ?_
  obtain ⟨hstage₂, rfl⟩ := hrounds
  have hlegal : r₂.stage.leadsTo .repaying = .ok true := by
    rw [hstage₂]
    exact Stage.round_leadsTo_repaying _
  refine Stops.bind (m := []) (advance_walks hlegal) fun _ r₃ h₃ hstage₃ => ?_
  refine Stops.bind (m := []) (supplyTranche_walks account asset s.loopCount _ r₃) fun _ r₄ h₄ hstage₄ => ?_
  refine Stops.bind (m := []) (judge_walks x account _ r₄) fun health r₅ h₅ hstage₅ => ?_
  refine Stops.bind (m := []) (settle_walks _ r₅) fun _ r₆ h₆ hstage₆ => ?_
  refine ⟨?_, hstage₆.trans (hstage₅.trans (hstage₄.trans hstage₃))⟩
  have hwalks := h₁.trans (h₂.trans (h₃.trans (h₄.trans (h₅.trans h₆))))
  rw [lastTranche_eq] at hwalks
  simpa [Schedule.journal, nextTicket, Ticket.owed, Schedule.loopCount] using hwalks

theorem walk_eq (n : Nat) : Stage.walk n = .idle :: executionStages n ++ [.settled] := by
  simp [Stage.walk, executionStages]

section Endings
variable {x account asset} {s : Schedule} {id : Nat} {run : Run} {v : Venue}

theorem abort_walks {cause : EngineError} (hcause : ¬ cause.IllegalStage) :
    (abort id run cause).Ends
      (fun ending _ => ending.run = run.enter .aborted ∧
        ∃ e, ending.outcome = .error e ∧ ¬ e.IllegalStage)
      (fun _ _ => False) v := by
  rw [abort, ends_bind, ends_attempt]
  refine (Venue.revert_ends id v).mono (fun _ _ _ => ?_) (fun e _ h => ?_)
  · exact ⟨rfl, cause, rfl, hcause⟩
  · obtain ⟨-, -, ⟨rollback, rfl⟩, -⟩ := h
    exact ⟨rfl, _, rfl, hcause⟩

theorem conclude_walks (health : HealthReport) (hstage : run.stage = .repaying) :
    (conclude id run health).Ends
      (fun ending _ => ending.outcome = .ok health ∧ ending.run = run.enter .settled ∨
        ending.run = run.enter .aborted ∧ ∃ e, ending.outcome = .error e ∧ ¬ e.IllegalStage)
      (fun _ _ => False) v := by
  rw [conclude, ends_bind, ends_attempt, onVenue_ends]
  refine (Venue.commit_ends id v).mono (fun _ w _ => ?_) (fun e w h => ?_)
  · show Ends (Action.ofTrap (run.stage.leadsTo .settled) >>= _) _ _ w
    have hlegal : run.stage.leadsTo .settled = .ok true := by
      rw [hstage]
      rfl
    rw [ends_bind, hlegal, ends_ofTrap]
    refine ⟨fun legal hlegal => ?_, fun _ h => by cases h⟩
    cases hlegal
    exact .inl ⟨rfl, rfl⟩
  · obtain ⟨-, cause, rfl⟩ := h
    exact (abort_walks (Halt.not_illegalStage_relabel (.refused cause))).mono (fun _ _ h => .inr h)
      (fun _ _ h => h)

theorem trail_prefix_of_stops {e : Halt EngineError} {t : Run}
    (h : Run.Stops { venue := v } (executionStages s.loopCount) e t) : t.trail <+: Stage.walk s.loopCount := by
  obtain ⟨-, entered, hentered, htrail⟩ := h
  rw [htrail, walk_eq]
  exact (List.prefix_append_right_inj [Stage.idle]).mpr (hentered.trans (List.prefix_append _ _))

theorem underCheckpoint_walks (hbound : s.loopCount < 2 ^ 32) :
    (underCheckpoint id (own.execute x account asset s)).Ends
      (fun ending _ =>
        (∃ health, ending.outcome = .ok health ∧ ending.run.trail = Stage.walk s.loopCount ∧
          ending.run.steps.reverse = s.journal (v.pool.flashFee s.totalBorrow) health.healthFactor) ∨
        (∃ e, ending.outcome = .error e ∧ ¬ e.IllegalStage) ∧
          ∃ entered, entered <+: Stage.walk s.loopCount ∧ ending.run.trail = entered ++ [.aborted])
      (fun e _ => (∃ trap, e = .trapped trap) ∧
        ((own.execute x account asset s).final { venue := v }).trail <+: Stage.walk s.loopCount) v := by
  have hexecute := execute_walks x account asset s (r := { venue := v }) rfl hbound
  cases hrun : own.execute x account asset s { venue := v } with
  | ok health run =>
    obtain ⟨hwalks, hstage⟩ := hexecute.of_ok hrun
    rw [Ends, underCheckpoint_of_ok hrun]
    refine (conclude_walks health hstage).mono (fun ending _ h => ?_) (fun _ _ h => h.elim)
    rcases h with ⟨houtcome, hending⟩ | ⟨hending, hcause⟩
    · refine .inl ⟨health, houtcome, ?_, ?_⟩
      · rw [hending, Run.trail_enter, hwalks.trail, walk_eq]
        rfl
      · rw [hending]
        exact hwalks.steps
    · refine .inr ⟨hcause, run.trail, ?_, by rw [hending, Run.trail_enter]⟩
      rw [hwalks.trail, walk_eq]
      exact List.prefix_append _ _
  | error e run =>
    have hstops := hexecute.of_error hrun
    have hprefix := trail_prefix_of_stops hstops
    cases e with
    | refused cause =>
      rw [Ends, underCheckpoint_of_refused hrun]
      refine (abort_walks hstops.1).mono (fun ending _ h => ?_) (fun _ _ h => h.elim)
      obtain ⟨hending, hcause⟩ := h
      exact .inr ⟨hcause, run.trail, hprefix, by rw [hending, Run.trail_enter]⟩
    | trapped trap =>
      rw [Ends, underCheckpoint_of_trapped hrun, final_of_error hrun]
      exact ⟨⟨trap, rfl⟩, hprefix⟩

end Endings

/-- The run as it stood when it was over, if it got as far as its checkpoint. A trap leaves it where it was. -/
def course (s : Schedule) (v : Venue) : Option Run :=
  match opening x account asset s v with
  | .error _ _ => none
  | .ok id u =>
    match underCheckpoint id (own.execute x account asset s) u with
    | .ok ending _ => some ending.run
    | .error _ _ => some ((own.execute x account asset s).final { venue := u })

theorem onVenue_legal {α : Type} (act : VenueM α) (v : Venue) :
    (onVenue act).Ends (fun _ _ => True) (fun e _ => ¬ e.IllegalStage) v :=
  onVenue_ends.mpr (.of_forall (fun _ _ => trivial) fun e _ => e.not_illegalStage_relabel)

theorem opening_legal (s : Schedule) (v : Venue) :
    (opening x account asset s).Ends (fun _ _ => True) (fun e _ => ¬ e.IllegalStage) v := by
  have hdelegated (required : Word) (v : Venue) : (checkDelegation x account asset required).Ends
      (fun _ _ => True) (fun e _ => ¬ e.IllegalStage) v := by
    rw [checkDelegation]
    split
    · trivial
    rw [ends_bind]
    refine (onVenue_legal _ v).mono (fun available u _ => ?_) (fun _ _ h => h)
    split
    · exact id
    · trivial
  have hchecked : (checkPreconditions x account asset s).Ends (fun _ _ => True)
      (fun e _ => ¬ e.IllegalStage) v := by
    rw [checkPreconditions, ends_bind]
    refine (onVenue_legal _ v).mono (fun r w _ => ?_) (fun _ _ h => h)
    split
    · exact id
    split
    · exact id
    split
    · exact id
    · exact hdelegated s.totalBorrow w
  rw [opening, ends_bind]
  exact hchecked.mono (fun _ w _ => onVenue_legal _ w) (fun _ _ h => h)

section Opened
variable {x account asset} {s : Schedule} {v u w : Venue} {id : Nat}

theorem runSchedule_of_ended {ending : Ending} (plan : Option Plan)
    (hopened : opening x account asset s v = .ok id u)
    (hrun : underCheckpoint id (own.execute x account asset s) u = .ok ending w) :
    runSchedule x account asset s plan v = own.report account asset s plan ending w ∧
      course x account asset s v = some ending.run := by
  rw [runSchedule_of_opened plan hopened, run_bind, course, hopened]
  simp only [hrun]
  exact ⟨trivial, trivial⟩

theorem runSchedule_of_trapped {e : Halt EngineError} (plan : Option Plan)
    (hopened : opening x account asset s v = .ok id u)
    (hrun : underCheckpoint id (own.execute x account asset s) u = .error e w) :
    runSchedule x account asset s plan v = .error e w ∧
      course x account asset s v = some ((own.execute x account asset s).final { venue := u }) := by
  rw [runSchedule_of_opened plan hopened, run_bind, course, hopened]
  simp only [hrun]
  exact ⟨trivial, trivial⟩

theorem runSchedule_of_unopened {e : Halt EngineError} (plan : Option Plan)
    (hunopened : opening x account asset s v = .error e w) :
    runSchedule x account asset s plan v = .error e w ∧ course x account asset s v = none := by
  rw [runSchedule_eq, run_bind, course, hunopened]
  exact ⟨rfl, rfl⟩

end Opened

/-- How a run finishes: what it answers and how far it has gone by then. -/
inductive Finish (s : Schedule) (v : Venue) :
    EStateM.Result (Halt EngineError) Venue Receipt → Option Run → Prop
  | unopened {e : Halt EngineError} {w : Venue} (legal : ¬ e.IllegalStage) : Finish s v (.error e w) none
  | trapped {trap : Trap} {w : Venue} {run : Run} (part : run.trail <+: Stage.walk s.loopCount) :
    Finish s v (.error (.trapped trap) w) (some run)
  | aborted {cause : EngineError} {w : Venue} {run : Run} {entered : List Stage} (legal : ¬ cause.IllegalStage)
    (uncommitted : ¬ v.Committed w) (part : entered <+: Stage.walk s.loopCount)
    (trail : run.trail = entered ++ [.aborted]) : Finish s v (.error (.refused cause) w) (some run)
  | unread {e : Halt EngineError} {w : Venue} {run : Run} (legal : ¬ e.IllegalStage) (committed : v.Committed w)
    (trail : run.trail = Stage.walk s.loopCount) : Finish s v (.error e w) (some run)
  | settled {receipt : Receipt} {w : Venue} {run : Run} (trail : run.trail = Stage.walk s.loopCount)
    (steps : receipt.steps = s.journal receipt.flashFee receipt.health.healthFactor) :
    Finish s v (.ok receipt w) (some run)

theorem report_finishes {s : Schedule} {plan : Option Plan} {v w : Venue} {health : HealthReport} {run : Run}
    (hpath : v.Path (wholeScript x account asset s v.pool) w) (hlisted : asset ∈ w.pool.assets)
    (htrail : run.trail = Stage.walk s.loopCount)
    (hsteps : run.steps.reverse = s.journal (v.flashFee s.totalBorrow) health.healthFactor) :
    Finish s v (own.report account asset s plan ⟨.ok health, run⟩ w) (some run) := by
  have hread := report_ends account asset hlisted s plan health run
  cases hreport : own.report account asset s plan ⟨.ok health, run⟩ w with
  | ok receipt w' =>
    obtain ⟨-, -, -, -, hfee, rfl, hnoted⟩ := hread.of_ok hreport
    refine .settled htrail ?_
    rw [hnoted, hsteps, hfee, hpath.flashFee_eq]
  | error e w' =>
    obtain ⟨hlast, -, -, cause, rfl⟩ := hread.of_error hreport
    refine .unread (Halt.not_illegalStage_relabel (.refused cause)) ?_ htrail
    rw [Venue.Committed, Venue.since_eq (hlast.done.trans hpath.done)]
    exact commit_mem_wholeScript v.pool

theorem runSchedule_finishes (hbound : x.bounds.maxLoopCount < 2 ^ 32) (s : Schedule) (plan : Option Plan) (v : Venue) :
    Finish s v (runSchedule x account asset s plan v) (course x account asset s v) := by
  cases hopened : opening x account asset s v with
  | error e w =>
    obtain ⟨hresult, hcourse⟩ := runSchedule_of_unopened plan hopened
    rw [hresult, hcourse]
    exact .unopened ((opening_legal x account asset s v).of_error hopened)
  | ok id u =>
    obtain ⟨hopen, rfl, hpool, hadmits⟩ := (opening_ends x account asset s v).of_ok hopened
    have hwalks : (underCheckpoint (v.pool.lastCheckpoint + 1) (own.execute x account asset s)).Ends _ _ u :=
      underCheckpoint_walks (hadmits.loops.trans_lt hbound)
    cases hrun : underCheckpoint (v.pool.lastCheckpoint + 1) (own.execute x account asset s) u with
    | error e w =>
      obtain ⟨⟨trap, rfl⟩, hpart⟩ := hwalks.of_error hrun
      obtain ⟨hresult, hcourse⟩ := runSchedule_of_trapped plan hopened hrun
      rw [hresult, hcourse]
      exact .trapped hpart
    | ok ending w =>
      obtain ⟨hok, herror⟩ := (underCheckpoint_opened x account asset hopen hpool hadmits).of_ok hrun
      obtain ⟨hresult, hcourse⟩ := runSchedule_of_ended plan hopened hrun
      obtain ⟨outcome, run⟩ := ending
      rw [hresult, hcourse]
      rcases hwalks.of_ok hrun with
        ⟨health, rfl, htrail, hsteps⟩ | ⟨⟨cause, rfl, hlegal⟩, entered, hpart, htrail⟩
      · obtain ⟨hpath, hlisted, hfee⟩ := hok health rfl
        refine report_finishes x account asset hpath hlisted htrail ?_
        rw [hsteps, hfee, hopen.charged_eq]
      · have haborted := herror cause rfl
        have hrefuses : Refuses x account asset s v cause w := .aborted hopen haborted
        exact .aborted hlegal (hrefuses.not_committed (haborted.unread.trans (hopen.quiet _ (.inr rfl)))) hpart htrail

/-- The run is refused before its checkpoint is committed. -/
def RefusedUncommitted (s : Schedule) (plan : Option Plan) (v : Venue) : Prop :=
  ∃ cause w, runSchedule x account asset s plan v = .error (.refused cause) w ∧ ¬ v.Committed w

/-- A run enters its stages in order from the first one on, and once its checkpoint is open it is aborted just where
it is refused without a commit. No stage is ever illegal, and a settled run has entered all of them and noted down
each of its steps. -/
theorem runSchedule_walks (hbound : x.bounds.maxLoopCount < 2 ^ 32) (s : Schedule) (plan : Option Plan) (v : Venue) :
    (∀ run, course x account asset s v = some run →
      (RefusedUncommitted x account asset s plan v → ∃ entered,
        entered <+: Stage.walk s.loopCount ∧ run.trail = entered ++ [.aborted]) ∧
      (¬ RefusedUncommitted x account asset s plan v → run.trail <+: Stage.walk s.loopCount)) ∧
    (∀ cause w, runSchedule x account asset s plan v = .error (.refused cause) w → ¬ cause.IllegalStage) ∧
    ∀ receipt w, runSchedule x account asset s plan v = .ok receipt w →
      ∃ run, course x account asset s v = some run ∧ run.trail = Stage.walk s.loopCount ∧
        receipt.steps = s.journal receipt.flashFee receipt.health.healthFactor := by
  have hfinish := runSchedule_finishes x account asset hbound s plan v
  rw [RefusedUncommitted]
  generalize runSchedule x account asset s plan v = result at hfinish ⊢
  generalize course x account asset s v = gone at hfinish ⊢
  cases hfinish with
  | unopened legal =>
    refine ⟨nofun, fun cause w h => ?_, nofun⟩
    cases h
    exact legal
  | trapped part =>
    refine ⟨fun run h => ?_, nofun, nofun⟩
    cases h
    exact ⟨nofun, fun _ => part⟩
  | aborted legal uncommitted part trail =>
    refine ⟨fun run h => ?_, fun cause w h => ?_, nofun⟩
    · cases h
      exact ⟨fun _ => ⟨_, part, trail⟩, fun hnot => absurd ⟨_, _, rfl, uncommitted⟩ hnot⟩
    · cases h
      exact legal
  | unread legal committed trail =>
    refine ⟨fun run h => ?_, fun cause w h => ?_, nofun⟩
    · cases h
      refine ⟨?_, fun _ => trail ▸ List.prefix_rfl⟩
      rintro ⟨cause, w, h, hnot⟩
      cases h
      exact absurd committed hnot
    · cases h
      exact legal
  | settled trail steps =>
    refine ⟨fun run h => ?_, nofun, fun receipt w h => ?_⟩
    · cases h
      exact ⟨nofun, fun _ => trail ▸ List.prefix_rfl⟩
    · cases h
      exact ⟨_, rfl, trail, steps⟩

/-- The sample run with its second borrow failing, and with no fault at all. -/
theorem runSchedule_walks_sample :
    (∃ run entered, course { operator := ⟨7⟩ } ⟨7⟩ ⟨1⟩ ⟨1000, [700, 490]⟩
        (sampleVenue [⟨.borrow, 2, .native .injected⟩]) = some run ∧
      entered <+: Stage.walk 2 ∧ run.trail = entered ++ [.aborted]) ∧
    ∃ receipt w, runSchedule { operator := ⟨7⟩ } ⟨7⟩ ⟨1⟩ ⟨1000, [700, 490]⟩ none (sampleVenue []) =
        .ok receipt w ∧
      receipt.steps = Schedule.journal ⟨1000, [700, 490]⟩ receipt.flashFee receipt.health.healthFactor := by
  have hwalks := runSchedule_walks { operator := ⟨7⟩ } ⟨7⟩ ⟨1⟩ (by decide) ⟨1000, [700, 490]⟩ none
  constructor
  · have hopened : (course { operator := ⟨7⟩ } ⟨7⟩ ⟨1⟩ ⟨1000, [700, 490]⟩
        (sampleVenue [⟨.borrow, 2, .native .injected⟩])).isSome := by decide +kernel
    obtain ⟨run, hrun⟩ := Option.isSome_iff_exists.mp hopened
    have hanswer : (runSchedule { operator := ⟨7⟩ } ⟨7⟩ ⟨1⟩ ⟨1000, [700, 490]⟩ none).answer
        (sampleVenue [⟨.borrow, 2, .native .injected⟩]) = .error (.refused (.pool (.native .injected))) := by
      decide +kernel
    have huncommitted : ¬ (sampleVenue [⟨.borrow, 2, .native .injected⟩]).Committed
        ((runSchedule { operator := ⟨7⟩ } ⟨7⟩ ⟨1⟩ ⟨1000, [700, 490]⟩ none).final
          (sampleVenue [⟨.borrow, 2, .native .injected⟩])) := by
      show ¬ _ ∈ _
      decide +kernel
    obtain ⟨entered, hentered⟩ :=
      ((hwalks _).1 run hrun).1 ⟨_, _, eq_error_of_answer hanswer, huncommitted⟩
    exact ⟨run, entered, hrun, hentered⟩
  · have hok : ((runSchedule { operator := ⟨7⟩ } ⟨7⟩ ⟨1⟩ ⟨1000, [700, 490]⟩ none).answer
        (sampleVenue [])).toOption.isSome := by decide +kernel
    cases hrun : runSchedule { operator := ⟨7⟩ } ⟨7⟩ ⟨1⟩ ⟨1000, [700, 490]⟩ none (sampleVenue []) with
    | ok receipt w =>
      obtain ⟨-, -, -, hsteps⟩ := (hwalks _).2.2 receipt w hrun
      exact ⟨receipt, w, rfl, hsteps⟩
    | error e w =>
      rw [answer_of_error hrun] at hok
      cases hok

end Executor
end Gearing
