import Gearing.Proofs.Executor.Alongside
import Gearing.Proofs.Pool.Wrapped

/-!
Runs that do not see the wrapped native coin. Two of them from venues that differ in that coin alone end alike, and
what they leave differs in it alone.
-/
namespace Gearing
open Gearing.Action Pool Flash

/-- The second venue differs from the first one in the wrapped coin and in what was called so far, and no call
of either is scripted to fail. -/
structure Venue.Rewrapped (w : Word) (v v' : Venue) : Prop where
  pool : v'.pool = v.pool.rewrap w
  faults : v.faults = []
  faults' : v'.faults = []
  quoted : v'.quotedFeeBps = v.quotedFeeBps

/-- Two runs at the same point on such venues. -/
structure Run.Rewrapped (w : Word) (r r' : Run) : Prop where
  venue : r.venue.Rewrapped w r'.venue
  same : r' = { r with venue := r'.venue }

namespace Venue
variable {w : Word} {α : Type}

theorem Rewrapped.flashFee {v v' : Venue} (h : v.Rewrapped w v') (amount : Word) :
    v'.flashFee amount = v.flashFee amount := by
  rw [Venue.flashFee, Venue.flashFee, feeBps, feeBps, h.quoted, h.pool]
  rfl

instance (act : PoolM α) [hact : Blind (Pool.Rewrapped w) act] : Blind (Venue.Rewrapped w) (reach act) :=
  hact.focus (fun h => h.pool) fun h hp => ⟨hp, h.faults, h.faults', h.quoted⟩

instance (c : Call) (act : PoolM α) [Blind (Pool.Rewrapped w) act] :
    Blind (Venue.Rewrapped w) (call c act) where
  alike {v v'} h := by
    have hcounted : Venue.Rewrapped w { v with calls := c :: v.calls } { v' with calls := c :: v'.calls } :=
      ⟨h.pool, h.faults, h.faults', h.quoted⟩
    have hreach : Alike (Venue.Rewrapped w) Eq (reach act) (reach act) _ _ := Blind.alike hcounted
    rw [Alike, Ends] at hreach ⊢
    rwa [call_of_clear (clear_of_faults h.faults c), call_of_clear (clear_of_faults h.faults' c)]

instance (c : Call) (op : Op) (act : PoolM α) [Blind (Pool.Rewrapped w) act] :
    Blind (Venue.Rewrapped w) (perform c op act) := by
  have hdone : Blind (Venue.Rewrapped w)
      (modify fun v => { v with done := op :: v.done } : VenueM PUnit) :=
    blind_modify fun h => ⟨h.pool, h.faults, h.faults', h.quoted⟩
  unfold perform
  infer_instance

instance (asset : Address) : Blind (Venue.Rewrapped w) (reserve asset) :=
  inferInstanceAs (Blind _ (call _ _))

instance (account asset : Address) : Blind (Venue.Rewrapped w) (position account asset) :=
  inferInstanceAs (Blind _ (call _ _))

instance (account : Address) : Blind (Venue.Rewrapped w) (snapshot account) :=
  inferInstanceAs (Blind _ (call _ _))

instance (account delegatee asset : Address) :
    Blind (Venue.Rewrapped w) (borrowAllowance account delegatee asset) :=
  inferInstanceAs (Blind _ (call _ _))

instance (asset : Address) (amount : Word) (account : Address) :
    Blind (Venue.Rewrapped w) (deposit asset amount account) :=
  inferInstanceAs (Blind _ (perform _ _ _))

instance (asset : Address) (amount : Word) (delegatee account : Address) :
    Blind (Venue.Rewrapped w) (borrow asset amount delegatee account) :=
  inferInstanceAs (Blind _ (perform _ _ _))

instance (asset : Address) (amount : Word) (account : Address) :
    Blind (Venue.Rewrapped w) (acquire asset amount account) :=
  inferInstanceAs (Blind _ (perform _ _ _))

instance (ticket : Nat) (paid : Word) : Blind (Venue.Rewrapped w) (repay ticket paid) :=
  inferInstanceAs (Blind _ (perform _ _ _))

instance (account : Address) : Blind (Venue.Rewrapped w) (checkpoint account) :=
  inferInstanceAs (Blind _ (perform _ _ _))

instance (id : Nat) : Blind (Venue.Rewrapped w) (revert id) :=
  inferInstanceAs (Blind _ (perform _ _ _))

instance (id : Nat) : Blind (Venue.Rewrapped w) (commit id) :=
  inferInstanceAs (Blind _ (perform _ _ _))

end Venue

namespace Run
variable {w : Word} {α : Type}

theorem blind_read {f : Run → RunM α}
    (h : ∀ (r : Run) (v : Venue), r.venue.Rewrapped w v →
      Alike (Run.Rewrapped w) Eq (f r) (f { r with venue := v }) r { r with venue := v }) :
    Blind (Run.Rewrapped w) (get >>= f) :=
  blind_get_bind fun {r r'} hr => by
    rw [hr.same]
    exact h r r'.venue hr.venue

theorem blind_ask {f : Run → RunM α} [hf : ∀ r, Blind (Run.Rewrapped w) (f r)]
    (h : ∀ (r : Run) (v : Venue), r.venue.Rewrapped w v → f { r with venue := v } = f r) :
    Blind (Run.Rewrapped w) (get >>= f) :=
  blind_read fun r v hv => by
    rw [h r v hv]
    exact (hf r).alike ⟨hv, rfl⟩

theorem blind_change {f : Run → Run}
    (h : ∀ (r : Run) (v : Venue), r.venue.Rewrapped w v → (f r).Rewrapped w (f { r with venue := v })) :
    Blind (Run.Rewrapped w) (modify f : RunM PUnit) :=
  blind_modify fun {r r'} hr => by
    rw [hr.same]
    exact h r r'.venue hr.venue

instance (act : VenueM α) [hact : Blind (Venue.Rewrapped w) act] :
    Blind (Run.Rewrapped w) (onVenue act) := by
  have hrelabel : Blind (Venue.Rewrapped w) (act.relabel EngineError.ofPool) := inferInstance
  exact hrelabel.focus (fun h => h.venue) fun h hv => ⟨hv, by rw [h.same]⟩

instance {σ : Type} {R : σ → σ → Prop} (cause : Invalid) : Blind R (invalid cause : Action EngineError σ α) :=
  inferInstanceAs (Blind R (refuse _))

instance (next : Stage) : Blind (Run.Rewrapped w) (advance next) := by
  refine blind_read fun r v hv => ?_
  have hlegal : Blind (Run.Rewrapped w) (ofTrap (r.stage.leadsTo next) : RunM Bool) := inferInstance
  refine (hlegal.alike ⟨hv, rfl⟩).bind fun {legal _ t t'} heq ht => ?_
  subst heq
  dsimp only
  split
  · exact alike_set ⟨hv, rfl⟩
  · exact alike_of_error rfl rfl ht

instance (step : Step) : Blind (Run.Rewrapped w) (note step) :=
  blind_change fun _ _ hv => ⟨hv, rfl⟩

instance (amount : Word) : Blind (Run.Rewrapped w) (receive amount) :=
  blind_change fun _ _ hv => ⟨hv, rfl⟩

instance (amount : Word) : Blind (Run.Rewrapped w) (spend amount) := by
  refine blind_read fun r v hv => ?_
  dsimp only
  cases Word.sub? r.cash amount with
  | some cash => exact alike_set ⟨hv, rfl⟩
  | none => exact alike_of_error rfl rfl ⟨hv, rfl⟩

end Run

namespace Executor
open Venue Run
variable {x : Executor} {account asset : Address} {w : Word}

section Execution

instance (i : Nat) (amount : Word) : Blind (Run.Rewrapped w) (supplyTranche account asset i amount) := by
  unfold supplyTranche
  infer_instance

instance (i : Nat) (amount : Word) :
    Blind (Run.Rewrapped w) (borrowTranche x account asset i amount) := by
  unfold borrowTranche
  infer_instance

instance (i : Nat) (each : Word) (borrows : List Word) :
    Blind (Run.Rewrapped w) (rounds x account asset i each borrows) := by
  induction borrows generalizing i each with
  | nil =>
    rw [rounds]
    infer_instance
  | cons next rest ih =>
    have hrest := ih (i + 1) next
    rw [rounds]
    infer_instance

instance (borrowed : Bool) : Blind (Run.Rewrapped w) (judge x account borrowed) := by
  unfold judge
  infer_instance

instance (ticket : Ticket) : Blind (Run.Rewrapped w) (own.settle ticket) := by
  have hrepay : Blind (Run.Rewrapped w) (do
      let r ← get
      if r.cash ≠ 0 then Action.refuse (.settlement ticket.owed r.cash)
      else
        Run.onVenue (Venue.repay ticket.id ticket.owed)
        Run.note (.flashRepaid ticket.owed) : RunM Unit) := Run.blind_ask fun _ _ _ => rfl
  dsimp only [settle, own]
  infer_instance

instance (s : Schedule) : Blind (Run.Rewrapped w) (own.fund account asset s) := by
  have hpay : ∀ fee, Blind (Run.Rewrapped w)
      (modify fun r => { r with cash := s.principal + fee } : RunM PUnit) :=
    fun _ => Run.blind_change fun _ _ hv => ⟨hv, rfl⟩
  dsimp only [fund, own]
  refine Run.blind_ask fun r v hv => ?_
  rw [hv.flashFee]

instance (s : Schedule) : Blind (Run.Rewrapped w) (own.execute x account asset s) := by
  unfold execute
  infer_instance

end Execution

section Endings

instance {α : Type} (act : VenueM α) [Blind (Venue.Rewrapped w) act] :
    Blind (Venue.Rewrapped w) (onVenue act) :=
  inferInstanceAs (Blind _ (act.relabel _))

/-- Two runs that ended alike. -/
structure Ending.Same (ending ending' : Ending) : Prop where
  outcome : ending'.outcome = ending.outcome
  stage : ending'.run.stage = ending.run.stage
  steps : ending'.run.steps = ending.run.steps

variable {v v' : Venue} {run run' : Run}

theorem carryOut_alike (act : RunM HealthReport) [Blind (Run.Rewrapped w) act] (h : v.Rewrapped w v') :
    Alike (Venue.Rewrapped w) Ending.Same (carryOut act) (carryOut act) v v' := by
  have hact : Blind (Run.Rewrapped w) (Action.attempt act : Action EngineError Run _) := inferInstance
  have hboth : Alike (Run.Rewrapped w) Eq _ _ { venue := v } { venue := v' } := hact.alike ⟨h, rfl⟩
  cases hrun : (Action.attempt act : Action EngineError Run _) { venue := v } with
  | ok outcome run =>
    obtain ⟨_, run', hrun', rfl, hsame⟩ := hboth.of_ok hrun
    have hcarried : carryOut act v = .ok ⟨outcome, run⟩ run.venue := by rw [carryOut, hrun]
    have hcarried' : carryOut act v' = .ok ⟨outcome, run'⟩ run'.venue := by rw [carryOut, hrun']
    have hstage : run'.stage = run.stage := by rw [hsame.same]
    have hsteps : run'.steps = run.steps := by rw [hsame.same]
    exact alike_of_ok hcarried hcarried' ⟨rfl, hstage, hsteps⟩ hsame.venue
  | error e run =>
    obtain ⟨run', hrun', hsame⟩ := hboth.of_error hrun
    exact alike_of_error (by rw [carryOut, hrun]) (by rw [carryOut, hrun']) hsame.venue

theorem abort_alike (h : v.Rewrapped w v') (hsteps : run'.steps = run.steps) (n : Nat) (cause : EngineError) :
    Alike (Venue.Rewrapped w) Ending.Same (abort n run cause) (abort n run' cause) v v' := by
  have hrevert : Blind (Venue.Rewrapped w)
      (Action.attempt (Venue.revert n) : Action EngineError Venue _) := inferInstance
  refine (hrevert.alike h).bind fun {r _ _ _} heq ht => ?_
  subst heq
  cases r with
  | ok _ => exact alike_of_ok rfl rfl ⟨rfl, rfl, hsteps⟩ ht
  | error rollback => exact alike_of_ok rfl rfl ⟨rfl, rfl, hsteps⟩ ht

theorem conclude_alike (h : v.Rewrapped w v') (hstage : run'.stage = run.stage)
    (hsteps : run'.steps = run.steps) (n : Nat) (health : HealthReport) :
    Alike (Venue.Rewrapped w) Ending.Same (conclude n run health) (conclude n run' health) v v' := by
  have hcommit : Blind (Venue.Rewrapped w)
      (Action.attempt (onVenue (Venue.commit n)) : Action EngineError Venue _) := inferInstance
  refine (hcommit.alike h).bind fun {r _ t t'} heq ht => ?_
  subst heq
  cases r with
  | error cause => exact abort_alike ht hsteps n cause
  | ok _ =>
    have hlegal : Blind (Venue.Rewrapped w)
      (ofTrap (run.stage.leadsTo .settled) : Action EngineError Venue Bool) := inferInstance
    dsimp only
    rw [hstage]
    refine (hlegal.alike ht).bind fun {legal _ u u'} heq hu => ?_
    subst heq
    cases legal with
    | true => exact alike_of_ok rfl rfl ⟨rfl, rfl, hsteps⟩ hu
    | false => exact alike_of_ok rfl rfl ⟨rfl, hstage, hsteps⟩ hu

theorem afterwards_alike (h : v.Rewrapped w v') {ending ending' : Ending} (hsame : ending.Same ending') (n : Nat) :
    Alike (Venue.Rewrapped w) Ending.Same (afterwards n ending) (afterwards n ending') v v' := by
  obtain ⟨outcome, run⟩ := ending
  obtain ⟨outcome', run'⟩ := ending'
  obtain ⟨rfl, hstage, hsteps⟩ := hsame
  cases outcome' with
  | error cause => exact abort_alike h hsteps n cause
  | ok health => exact conclude_alike h hstage hsteps n health

theorem report_alike (h : v.Rewrapped w v') {ending ending' : Ending} (hsame : ending.Same ending')
    (s : Schedule) (plan : Option Plan) :
    Alike (Venue.Rewrapped w) Eq (own.report account asset s plan ending) (own.report account asset s plan ending')
      v v' := by
  obtain ⟨outcome, run⟩ := ending
  obtain ⟨outcome', run'⟩ := ending'
  obtain ⟨rfl, -, hsteps⟩ := hsame
  cases outcome' with
  | error cause => exact alike_of_error rfl rfl h
  | ok health =>
    have hread : Blind (Venue.Rewrapped w) (onVenue (Venue.position account asset)) := inferInstance
    refine (hread.alike h).bind fun {position _ t t'} heq ht => ?_
    subst heq
    refine alike_of_ok rfl rfl ?_ ht
    dsimp only [own] at hsteps ⊢
    rw [ht.flashFee, hsteps]

end Endings

section Runs

instance (required : Word) : Blind (Venue.Rewrapped w) (checkDelegation x account asset required) := by
  unfold checkDelegation
  infer_instance

instance (s : Schedule) : Blind (Venue.Rewrapped w) (checkPreconditions x account asset s) := by
  unfold checkPreconditions
  infer_instance

instance (s : Schedule) : Blind (Venue.Rewrapped w) (opening x account asset s) := by
  unfold opening
  infer_instance

instance (s : Schedule) (plan : Option Plan) :
    Blind (Venue.Rewrapped w) (runSchedule x account asset s plan) := by
  have hclosing : ∀ n, Blind (Venue.Rewrapped w)
      (underCheckpoint n (own.execute x account asset s) >>= own.report account asset s plan) := fun n => by
    refine ⟨fun {v v'} h => ?_⟩
    refine Alike.bind (S := Ending.Same) ((carryOut_alike (own.execute x account asset s) h).bind ?_) ?_
    · exact fun hsame ht => afterwards_alike ht hsame n
    · exact fun hsame ht => report_alike ht hsame s plan
  rw [runSchedule_eq]
  infer_instance

instance (principal : Word) (plan : Plan) :
    Blind (Venue.Rewrapped w) (runPlan x account asset principal plan) := by
  unfold runPlan
  cases Schedule.ofPlan principal plan <;> dsimp only <;> infer_instance

end Runs

end Executor
end Gearing
