import Gearing.Executor.Native
import Gearing.Proofs.Executor.Ending
import Gearing.Proofs.Pool.Snapshot

/-!
The health that a receipt reports. The guard is asked in the middle of the run, and nothing that comes
after it shows in a snapshot, so it would give the same answer about the account that the run leaves.
-/
namespace Gearing.Executor
open Gearing.Action Pool Flash

/-- Asked about the account as it stands in the pool, the guard answers what the receipt says. -/
def Confirms (x : Executor) (account : Address) (receipt : Receipt) (p : Pool) : Prop :=
  x.guard.check (receipt.schedule.totalBorrow != 0) (p.snapshot account) = .ok receipt.health

section
variable (x : Executor) (account asset : Address)

theorem execute_judged (s : Schedule) (r : Run) :
    (own.execute x account asset s).Ends
      (fun health r' =>
        x.guard.check (s.totalBorrow != 0) (r'.venue.pool.snapshot account) = .ok health)
      (fun _ _ => True) r := by
  rw [execute_eq, ends_bind]
  refine (approach_ends x account asset 0 s r).mono (fun judged r₁ h => ?_) (fun _ _ _ => trivial)
  obtain ⟨ticket, health⟩ := judged
  obtain ⟨-, -, -, -, hcheck⟩ := h
  show Ends (own.settle ticket >>= _) _ _ r₁
  rw [ends_bind]
  refine (settle_ends account 0 ticket r₁).mono (fun _ r₂ h => ?_) (fun _ _ _ => trivial)
  have hunseen : ∀ op ∈ [Op.repay ticket.id ticket.owed], op.Unseen :=
    List.forall_mem_singleton.mpr trivial
  rw [ends_pure, h.1.pool.snapshot_eq hunseen]
  exact hcheck

theorem abort_refuses (id : Nat) (run : Run) (cause : EngineError) (v : Venue) :
    (abort id run cause).Ends (fun ending _ => ∀ health, ending.outcome ≠ .ok health)
      (fun _ _ => True) v := by
  rw [abort, ends_bind, ends_attempt]
  refine .of_forall (fun _ _ => ?_) (fun e _ => ?_)
  · exact fun _ hok => by cases hok
  · cases e with
    | refused => exact fun _ hok => by cases hok
    | trapped => trivial

theorem conclude_judged (id : Nat) (run : Run) (health : HealthReport) (v : Venue) :
    (conclude id run health).Ends
      (fun ending w => ∀ h, ending.outcome = .ok h →
        h = health ∧ w.pool.snapshot account = v.pool.snapshot account)
      (fun _ _ => True) v := by
  rw [conclude, ends_bind, ends_attempt, onVenue_ends]
  refine (Venue.commit_ends id v).mono (fun _ w hpath => ?_) (fun e w _ => ?_)
  · have hsnapshot := hpath.pool.snapshot_eq (List.forall_mem_singleton.mpr trivial) account
    simp only [ends_bind, ends_ofTrap]
    refine ⟨fun legal _ => ?_, fun _ _ => trivial⟩
    split
    · intro h hok
      cases hok
      exact ⟨rfl, hsnapshot⟩
    · exact fun _ hok => by cases hok
  · cases e with
    | refused cause =>
      exact (abort_refuses id run _ w).mono (fun _ _ h _ hok => absurd hok (h _)) (fun _ _ h => h)
    | trapped => trivial

theorem underCheckpoint_judged (id : Nat) (s : Schedule) (v : Venue) :
    (underCheckpoint id (own.execute x account asset s)).Ends
      (fun ending w => ∀ health, ending.outcome = .ok health →
        x.guard.check (s.totalBorrow != 0) (w.pool.snapshot account) = .ok health)
      (fun _ _ => True) v := by
  rw [underCheckpoint, ends_bind]
  refine (carryOut_of_ends (execute_judged x account asset s { venue := v })).mono
    (fun ending u h => ?_) (fun _ _ _ => trivial)
  obtain ⟨rfl, hok, -⟩ := h
  obtain ⟨outcome, run⟩ := ending
  cases outcome with
  | error cause =>
    exact (abort_refuses id run cause _).mono (fun _ _ h _ hok => absurd hok (h _)) (fun _ _ h => h)
  | ok health =>
    refine (conclude_judged account id run health _).mono (fun ending w h health' hok' => ?_)
      (fun _ _ h => h)
    obtain ⟨rfl, hsnapshot⟩ := h health' hok'
    rw [hsnapshot]
    exact hok _ rfl

theorem position_reads (v : Venue) :
    (Venue.position account asset).Ends
      (fun pos w => w.pool = v.pool ∧ ∃ r, v.pool.reserve? asset = some r ∧
        pos = ⟨account, asset, (v.pool.totals account r).1, (v.pool.totals account r).2⟩)
      (fun _ _ => True) v := by
  refine Venue.call_ends .position (fun _ => ?_) (fun _ _ => trivial)
  rw [Pool.position, ends_bind]
  exact Pool.reserve_ends asset (fun r hr => ⟨rfl, r, hr, rfl⟩) (fun _ _ => trivial)

theorem runSchedule_confirms (s : Schedule) (plan : Option Plan) (v : Venue) :
    (runSchedule x account asset s plan).Ends (fun receipt w => Confirms x account receipt w.pool)
      (fun _ _ => True) v := by
  refine runSchedule_ensures x account asset fun id u health run u' _ hclosed => ?_
  have hcheck := (underCheckpoint_judged x account asset id s u).of_ok hclosed health rfl
  simp only [report, ends_bind, onVenue_ends]
  refine (position_reads account asset u').mono (fun pos w h => ?_) (fun _ _ _ => trivial)
  show x.guard.check (s.totalBorrow != 0) (w.pool.snapshot account) = .ok health
  rw [h.1]
  exact hcheck

theorem serve_confirms (request : Request) (v : Venue) :
    (serve x account asset request).Ends (fun receipt w => Confirms x account receipt w.pool)
      (fun _ _ => True) v :=
  serve_ensures x account asset (fun s plan _ => runSchedule_confirms x account asset s plan v) fun _ => trivial

theorem runNative_served (plan : Plan) (attached : Word) (v : Venue) :
    (runNative x account plan attached).Ends
      (fun receipt w => ∃ asset request u, v.Path [.wrap attached] u ∧
        serve x account asset request u = .ok receipt w)
      (fun _ _ => True) v := by
  rw [runNative, ends_bind, ends_get]
  split
  · trivial
  split
  · trivial
  · rename_i principal _
    rw [ends_bind, onVenue_ends]
    refine (Venue.perform_ends (by simp [Venue.Call.Late]) (wrap_does attached v.pool)).mono
      (fun _ u h => ?_) (fun _ _ _ => trivial)
    rw [ends_bind, ends_attempt]
    unfold Ends
    split
    · rename_i receipt w hrun
      exact ⟨_, .planned principal plan, u, h.1, hrun⟩
    · rename_i e w _
      cases e with
      | trapped => trivial
      | refused cause =>
        show Ends (Action.attempt (Venue.unwrap attached) >>= _) _ _ w
        rw [ends_bind, ends_attempt]
        refine .of_forall (fun _ _ => trivial) (fun e _ => ?_)
        cases e <;> trivial

theorem runNative_confirms (plan : Plan) (attached : Word) (v : Venue) :
    (runNative x account plan attached).Ends (fun receipt w => Confirms x account receipt w.pool)
      (fun _ _ => True) v := by
  refine (runNative_served x account plan attached v).mono (fun receipt w h => ?_) (fun _ _ h => h)
  obtain ⟨asset, request, u, -, hserved⟩ := h
  exact (serve_confirms x account asset request u).of_ok hserved

end

/-- No run answers with a receipt and leaves an account that its guard would not pass, or would pass with
another health: whatever the account held before, and whichever calls of the venue fail. -/
theorem receipt_confirmed (x : Executor) (account : Address) {v w : Venue} {receipt : Receipt}
    (hrun : (∃ asset request, serve x account asset request v = .ok receipt w) ∨
      ∃ plan attached, runNative x account plan attached v = .ok receipt w) :
    Confirms x account receipt w.pool := by
  obtain ⟨asset, request, hrun⟩ | ⟨plan, attached, hrun⟩ := hrun
  · exact (serve_confirms x account asset request v).of_ok hrun
  · exact (runNative_confirms x account plan attached v).of_ok hrun

/-- A pool of two reserves, where the account has supplied the one and owes some of it already. -/
def indebtedVenue : Venue where
  pool := history { feeBps := 9, wrappedNative := ⟨1⟩ }
    [.list { asset := ⟨1⟩, symbol := "A", decimals := 18, ltvBps := 8000,
             liquidationThresholdBps := 8500 },
     .list { asset := ⟨2⟩, symbol := "B", decimals := 6, ltvBps := 7000,
             liquidationThresholdBps := 7500 },
     .supply ⟨1⟩ 1000000, .deposit ⟨2⟩ 50 ⟨7⟩, .borrow ⟨2⟩ 20 ⟨7⟩ ⟨7⟩]

def indebtedRun : ExecM Receipt := serve { operator := ⟨7⟩ } ⟨7⟩ ⟨1⟩ (.planned 1000 ⟨2, 7000⟩)

theorem receipt_confirmed_indebted : ∃ receipt w, indebtedRun indebtedVenue = .ok receipt w ∧
    receipt.health.debt = 20000000001190 ∧ Confirms { operator := ⟨7⟩ } ⟨7⟩ receipt w.pool := by
  have hanswer : (indebtedRun.answer indebtedVenue).map (·.health.debt) = .ok 20000000001190 := by
    decide +kernel
  obtain ⟨receipt, hrun, hdebt⟩ := exists_ok_of_map_answer hanswer
  exact ⟨receipt, _, hrun, hdebt,
    receipt_confirmed { operator := ⟨7⟩ } ⟨7⟩ (.inl ⟨⟨1⟩, .planned 1000 ⟨2, 7000⟩, hrun⟩)⟩

end Gearing.Executor
