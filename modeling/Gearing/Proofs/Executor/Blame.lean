import Gearing.Proofs.Executor.Judged

/-!
Whose refusal it is. Of all that a run does only its guard refuses an account for its collateral, so a run that
ends with that refusal, rolled back or not, was carried out up to its repayment and judged there.
-/
namespace Gearing
open Gearing.Action Pool Flash

/-- The cause is the guard's, also where the run could not be rolled back after it. -/
def EngineError.FromGuard : EngineError → Prop
  | .insufficientCollateral .. => True
  | .rollbackFailed cause _ => cause.FromGuard
  | _ => False

def Halt.FromGuard : Halt EngineError → Prop
  | .refused cause => cause.FromGuard
  | .trapped _ => False

theorem EngineError.not_fromGuard_ofPool (cause : PoolError) : ¬ (EngineError.ofPool cause).FromGuard := by
  cases cause <;> exact id

theorem Halt.not_fromGuard_relabel (e : Halt PoolError) : ¬ (e.relabel EngineError.ofPool).FromGuard := by
  cases e with
  | refused cause => exact EngineError.not_fromGuard_ofPool cause
  | trapped trap => exact id

/-- The program halts for other causes than the guard's. -/
class Blameless {σ α : Type} (act : Action EngineError σ α) : Prop where
  halts : ∀ s, act.Ends (fun _ _ => True) (fun e _ => ¬ e.FromGuard) s

namespace Blameless
variable {σ α β : Type}

instance (a : α) : Blameless (pure a : Action EngineError σ α) := ⟨fun _ => trivial⟩

instance : Blameless (get : Action EngineError σ σ) := ⟨fun _ => trivial⟩

instance (t : σ) : Blameless (set t : Action EngineError σ PUnit) := ⟨fun _ => trivial⟩

instance (f : σ → σ) : Blameless (modify f : Action EngineError σ PUnit) := ⟨fun _ => trivial⟩

instance (r : Except Trap α) : Blameless (ofTrap r : Action EngineError σ α) :=
  ⟨fun _ => (ends_ofTrap r).mpr ⟨fun _ _ => trivial, fun _ _ => id⟩⟩

instance (cause : Invalid) : Blameless (Run.invalid cause : Action EngineError σ α) := ⟨fun _ => id⟩

instance (owed cash : Word) : Blameless (refuse (.settlement owed cash) : Action EngineError σ α) :=
  ⟨fun _ => id⟩

instance (asset : Address) (required available : Word) :
    Blameless (refuse (.insufficientDelegation asset required available) : Action EngineError σ α) :=
  ⟨fun _ => id⟩

instance (asset : Address) (active enabled : Bool) :
    Blameless (refuse (.inactiveReserve asset active enabled) : Action EngineError σ α) :=
  ⟨fun _ => id⟩

instance (act : Action EngineError σ α) (f : α → Action EngineError σ β) [hact : Blameless act]
    [hf : ∀ a, Blameless (f a)] : Blameless (act >>= f) where
  halts s := (ends_bind act f).mpr ((hact.halts s).mono (fun a t _ => (hf a).halts t) (fun _ _ h => h))

instance (c : Prop) [Decidable c] (act act' : Action EngineError σ α) [Blameless act] [Blameless act'] :
    Blameless (if c then act else act') := by
  split <;> infer_instance

/-- The pool has no guard, and its causes are none of the guard's in the words of the engine either. -/
instance (act : VenueM α) : Blameless (Executor.onVenue act) where
  halts _ := Executor.onVenue_ends.mpr
    (.of_forall (fun _ _ => trivial) (fun e _ => Halt.not_fromGuard_relabel e))

instance (act : VenueM α) : Blameless (Run.onVenue act) where
  halts _ := Run.onVenue_ends.mpr
    (.of_forall (fun _ _ => trivial) (fun e _ => Halt.not_fromGuard_relabel e))

theorem bind_ends {act : Action EngineError σ α} {f : α → Action EngineError σ β} [hact : Blameless act]
    {P : α → σ → Prop} {Q : β → σ → Prop} {E C : Halt EngineError → σ → Prop} {s : σ} (h : act.Ends P E s)
    (hf : ∀ a t, P a t → (f a).Ends Q (fun e t => e.FromGuard → C e t) t) :
    (act >>= f).Ends Q (fun e t => e.FromGuard → C e t) s := by
  rw [ends_bind]
  refine (h.and (hact.halts s)).mono (fun a t ha => hf a t ha.1) (fun e t he hguard => ?_)
  exact absurd hguard he.2

end Blameless

namespace Run

instance (step : Step) : Blameless (note step) := by unfold note; infer_instance

instance (amount : Word) : Blameless (receive amount) := by unfold receive; infer_instance

instance (next : Stage) : Blameless (advance next) := by unfold advance; infer_instance

instance (amount : Word) : Blameless (spend amount) where
  halts r := by
    simp only [spend, ends_bind, ends_get]
    split
    · trivial
    · exact id

end Run

namespace Executor
variable (x : Executor) (account asset : Address)

instance (i : Nat) (amount : Word) : Blameless (supplyTranche account asset i amount) := by
  unfold supplyTranche
  infer_instance

instance (i : Nat) (amount : Word) : Blameless (borrowTranche x account asset i amount) := by
  unfold borrowTranche
  infer_instance

instance (i : Nat) (each : Word) (borrows : List Word) :
    Blameless (rounds x account asset i each borrows) := by
  induction borrows generalizing i each with
  | nil =>
    unfold rounds
    infer_instance
  | cons next rest ih =>
    have hrest : Blameless (rounds x account asset (i + 1) next rest) := ih (i + 1) next
    unfold rounds
    infer_instance

instance (s : Schedule) : Blameless (own.fund account asset s) := by
  unfold fund
  infer_instance

instance (t : Ticket) : Blameless (own.settle t) := by
  unfold settle
  infer_instance

instance (required : Word) : Blameless (checkDelegation x account asset required) := by
  unfold checkDelegation
  infer_instance

instance (s : Schedule) : Blameless (checkPreconditions x account asset s) := by
  unfold checkPreconditions
  infer_instance

instance (s : Schedule) : Blameless (opening x account asset s) := by
  unfold opening
  infer_instance

instance (s : Schedule) (plan : Option Plan) (health : HealthReport) (run : Run) :
    Blameless (own.report account asset s plan ⟨.ok health, run⟩) := by
  simp only [report]
  infer_instance

theorem judge_blames (borrowed : Bool) (r : Run) :
    (judge x account borrowed).Ends (fun _ _ => True)
      (fun e r' => e.FromGuard → r.venue.Path [] r'.venue ∧
        x.guard.check borrowed (r'.venue.pool.snapshot account) = .error e) r := by
  rw [judge, ends_bind, Run.onVenue_ends]
  refine (Venue.snapshot_ends r.venue account).mono (fun snapshot v h => ?_)
    (fun e _ _ hguard => absurd hguard (Halt.not_fromGuard_relabel e))
  obtain ⟨hpath, hpool, rfl⟩ := h
  rw [ends_bind, ends_ofExcept]
  exact ⟨fun _ _ => trivial, fun e hcheck _ => ⟨hpath, hpool ▸ hcheck⟩⟩

variable (s : Schedule)

/-- These operations of the run were carried out, and the guard refused the account as they left it. -/
def Judged (ops : List Op) (p : Pool) : Prop :=
  ∃ q e, p.Carried ops q ∧ x.guard.check (s.totalBorrow != 0) (q.snapshot account) = .error e

theorem build_blames (r : Run) :
    (build x account asset s).Ends (fun _ _ => True)
      (fun e r' => e.FromGuard → r.venue.Path (roundOps x.operator account asset s.principal s.borrows ++
          [.deposit asset (lastTranche s.principal s.borrows) account]) r'.venue ∧
        x.guard.check (s.totalBorrow != 0) (r'.venue.pool.snapshot account) = .error e) r := by
  rw [build]
  refine Blameless.bind_ends (rounds_ends x account asset 0 0 s.principal s.borrows r) fun last r₁ h₁ => ?_
  obtain ⟨rfl, hpath₁, -⟩ := h₁
  have hadvance : (Run.advance .repaying).Ends (fun _ r₂ => r₂ = r₁.enter .repaying) (fun _ _ => True) r₁ :=
    Run.advance_ends _ rfl fun _ => trivial
  refine Blameless.bind_ends hadvance fun _ r₂ h₂ => ?_
  subst h₂
  refine Blameless.bind_ends (supplyTranche_ends account asset 0 s.loopCount _ _) fun _ r₃ h₃ => ?_
  have hpath₃ := hpath₁.trans h₃.1
  refine (judge_blames x account _ r₃).mono (fun _ _ _ => trivial) (fun e r₄ hjudged hguard => ?_)
  obtain ⟨hpath₄, hcheck⟩ := hjudged hguard
  exact ⟨by simpa using hpath₃.trans hpath₄, hcheck⟩

/-- Where the guard is to blame the run stands where it was judged. -/
theorem execute_blames (r : Run) :
    (own.execute x account asset s).Ends (fun _ _ => True)
      (fun e r' => e.FromGuard → r.venue.Path (judgedOps x account asset s).tail r'.venue ∧
        x.guard.check (s.totalBorrow != 0) (r'.venue.pool.snapshot account) = .error e) r := by
  have hexecute : own.execute x account asset s = (do
      let t ← own.fund account asset s
      let health ← build x account asset s
      own.settle t
      return health) := by
    simp only [execute_eq, approach, bind_assoc, pure_bind]
  rw [hexecute]
  refine Blameless.bind_ends (fund_ends account asset 0 s r) fun t r₁ h₁ => ?_
  rw [ends_bind]
  refine (build_blames x account asset s r₁).mono (fun health r₂ _ => ?_) (fun e r₂ hjudged hguard => ?_)
  · exact Blameless.bind_ends (settle_ends account 0 t r₂) fun _ _ _ => trivial
  · obtain ⟨hpath₂, hcheck⟩ := hjudged hguard
    exact ⟨h₁.2.1.trans hpath₂, hcheck⟩

section Outcomes
variable (id : Nat) (run : Run) (v : Venue)

theorem abort_blames (cause : EngineError) :
    (abort id run cause).Ends
      (fun ending _ => ∀ e, ending.outcome = .error e → e.FromGuard → cause.FromGuard)
      (fun e _ => ¬ e.FromGuard) v := by
  rw [abort, ends_bind, ends_attempt]
  refine .of_forall (fun _ _ => ?_) (fun halt _ => ?_)
  · intro e he hguard
    cases he
    exact hguard
  · cases halt with
    | refused rollback =>
      intro e he hguard
      cases he
      exact hguard
    | trapped trap => exact not_false

theorem conclude_blames (health : HealthReport) :
    (conclude id run health).Ends (fun ending _ => ∀ e, ending.outcome = .error e → ¬ e.FromGuard)
      (fun e _ => ¬ e.FromGuard) v := by
  have hcommit : Blameless (onVenue (Venue.commit id)) := inferInstance
  rw [conclude, ends_bind, ends_attempt]
  refine (hcommit.halts v).mono (fun _ w _ => ?_) (fun halt w hnot => ?_)
  · simp only [ends_bind, ends_ofTrap]
    refine ⟨fun legal _ => ?_, fun _ _ => not_false⟩
    split
    · intro e he
      cases he
    · intro e he
      cases he
      exact not_false
  · cases halt with
    | refused cause =>
      refine (abort_blames id run w cause).mono (fun _ _ h e he hguard => ?_) (fun _ _ h => h)
      exact hnot (h e he hguard)
    | trapped trap => exact not_false

end Outcomes

theorem underCheckpoint_blames (id : Nat) (v : Venue) :
    (underCheckpoint id (own.execute x account asset s)).Ends
      (fun ending _ => ∀ e, ending.outcome = .error e → e.FromGuard →
        x.Judged account s (judgedOps x account asset s).tail v.pool)
      (fun e _ => ¬ e.FromGuard) v := by
  rw [underCheckpoint, ends_bind]
  refine (carryOut_of_ends (execute_blames x account asset s { venue := v })).mono
    (fun ending w h => ?_) (fun e w h => ?_)
  case refine_2 =>
    obtain ⟨trap, _, rfl, -⟩ := h
    exact not_false
  obtain ⟨-, -, herr⟩ := h
  obtain ⟨outcome, run⟩ := ending
  cases outcome with
  | error cause =>
    refine (abort_blames id run w cause).mono (fun ending u h e he hguard => ?_) (fun _ _ h => h)
    obtain ⟨hpath, hcheck⟩ := herr cause rfl (h e he hguard)
    exact ⟨_, _, hpath.pool, hcheck⟩
  | ok health =>
    refine (conclude_blames id run w health).mono (fun _ _ h e he hguard => ?_) (fun _ _ h => h)
    exact absurd hguard (h e he)

theorem runSchedule_blames (plan : Option Plan) (v : Venue) :
    (runSchedule x account asset s plan).Ends (fun _ _ => True)
      (fun e _ => e.FromGuard → x.Judged account s (judgedOps x account asset s) v.pool) v := by
  rw [runSchedule_eq]
  refine Blameless.bind_ends (opening_ends x account asset s v) fun id u h => ?_
  obtain ⟨hopen, -⟩ := h
  rw [ends_bind]
  refine (underCheckpoint_blames x account asset s id u).mono (fun ending w h => ?_)
    (fun _ _ hnot hguard => absurd hguard hnot)
  obtain ⟨outcome, run⟩ := ending
  cases outcome with
  | error cause =>
    intro hguard
    obtain ⟨q, e, hcarried, hcheck⟩ := h cause rfl hguard
    exact ⟨q, e, hopen.pool.append hcarried, hcheck⟩
  | ok health =>
    exact Ends.mono (Blameless.halts w) (fun _ _ h => h) (fun _ _ hnot hguard => absurd hguard hnot)

end Executor
end Gearing
