import Gearing.Proofs.Executor.Course

/-!
The ways in which a run ends. A run that settles has committed what its script says; a run that is refused
has done nothing yet, or has reverted what it did, or could not revert it, or has committed and could not
read its position back.
-/
namespace Gearing
open Gearing.Action Pool Flash

namespace Pool

theorem position_ends {p : Pool} {account asset : Address} (hlisted : asset ∈ p.assets) :
    (position account asset).Ends
      (fun pos q => q = p ∧ ∃ r, p.reserve? asset = some r ∧
        pos = ⟨account, asset, (p.totals account r).1, (p.totals account r).2⟩)
      (fun _ _ => False) p := by
  rw [position, ends_bind]
  refine reserve_ends asset (fun r hr => ⟨rfl, r, hr, rfl⟩) (fun _ hnone => ?_)
  have hsome := (p.isSome_reserve? asset).mpr hlisted
  rw [hnone] at hsome
  cases hsome

end Pool

namespace Venue

/-- A call that changes the pool, late in a run: how it was counted is all that differs. -/
structure Last (v : Venue) (c : Call) (ops : List Op) (w : Venue) : Prop where
  done : w.done = ops ++ v.done
  faults : w.faults = v.faults
  quotedFeeBps : w.quotedFeeBps = v.quotedFeeBps
  calls : w.calls = c :: v.calls

theorem revert_ends (id : Nat) (v : Venue) :
    (revert id).Ends
      (fun _ w => v.Last .revertTo [.revert id] w ∧ v.Clear .revertTo ∧
        v.pool.Effect (.revert id) .done w.pool)
      (fun e w => v.Last .revertTo [] w ∧ w.pool = v.pool ∧ (∃ cause, e = .refused cause) ∧
        (v.Clear .revertTo → v.pool.journals.get? id = none)) v := by
  rw [revert, perform, ends_bind]
  refine call_ends .revertTo (fun hclear => ?_) (fun hfault cause => ?_)
  · refine (Pool.revert_ends id v.pool).mono (fun _ q hq => ?_) (fun e q hq => ?_)
    · exact ⟨⟨rfl, rfl, rfl, rfl⟩, hclear, hq⟩
    · obtain ⟨rfl, hnone, rfl⟩ := hq
      exact ⟨⟨rfl, rfl, rfl, rfl⟩, rfl, ⟨_, rfl⟩, fun _ => hnone⟩
  · exact ⟨⟨rfl, rfl, rfl, rfl⟩, rfl, ⟨_, rfl⟩, fun hclear => absurd hclear hfault⟩

theorem commit_ends (id : Nat) (v : Venue) :
    (commit id).Ends (fun _ w => v.Path [.commit id] w)
      (fun e w => v.Still w ∧ ∃ cause, e = .refused cause) v := by
  have hlate : ¬ Call.Late .commit := by simp [Call.Late]
  rw [commit, perform, ends_bind]
  refine call_ends .commit (fun hclear => ?_) (fun hfault cause => ?_)
  · refine (Pool.commit_ends id v.pool).mono (fun _ q hq => ?_) (fun e q hq => ?_)
    · exact ⟨rfl, .single hq, rfl, rfl, fun d hd => quiet_counted hlate hd _⟩
    · obtain ⟨rfl, -, rfl⟩ := hq
      exact ⟨⟨rfl, fun _ => rfl, rfl, rfl, fun d hd => quiet_counted hlate hd _⟩, _, rfl⟩
  · exact ⟨⟨rfl, fun _ => rfl, rfl, rfl, fun d hd => quiet_counted hlate hd _⟩, _, rfl⟩

theorem position_ends {v : Venue} {account asset : Address} (hlisted : asset ∈ v.pool.assets) :
    (position account asset).Ends
      (fun pos w => v.Last .position [] w ∧ v.Clear .position ∧ w.pool = v.pool ∧
        ∃ r, v.pool.reserve? asset = some r ∧
          pos = ⟨account, asset, (v.pool.totals account r).1, (v.pool.totals account r).2⟩)
      (fun e w => v.Last .position [] w ∧ ¬ v.Clear .position ∧ w.pool = v.pool ∧
        ∃ cause, e = .refused cause) v := by
  refine call_ends .position (fun hclear => ?_) (fun hfault cause => ?_)
  · refine (Pool.position_ends hlisted).mono (fun pos q hq => ?_) (fun _ _ h => h.elim)
    obtain ⟨rfl, hpos⟩ := hq
    exact ⟨⟨rfl, rfl, rfl, rfl⟩, hclear, rfl, hpos⟩
  · exact ⟨⟨rfl, rfl, rfl, rfl⟩, hfault, rfl, _, rfl⟩

end Venue

/-- The checks before a run, and what passes them. -/
structure Executor.Admits (x : Executor) (account asset : Address) (s : Schedule) (p : Pool) : Prop where
  borrowable : ∃ r, p.reserve? asset = some r ∧ r.active ∧ r.borrowingEnabled
  principal : s.principal ≠ 0
  loops : s.loopCount ≤ x.bounds.maxLoopCount
  delegated : account ≠ x.operator → s.totalBorrow ≤ p.allowance account x.operator asset

namespace Executor
variable (x : Executor) (account asset : Address)

theorem onVenue_ends {α : Type} {P : α → Venue → Prop} {E : Halt EngineError → Venue → Prop}
    {v : Venue} {act : VenueM α} :
    (onVenue act).Ends P E v ↔ act.Ends P (fun e w => E (e.relabel EngineError.ofPool) w) v := by
  rw [onVenue, ends_relabel]

theorem checkDelegation_ends (required : Word) (v : Venue) :
    (checkDelegation x account asset required).Ends
      (fun _ w => v.Path [] w ∧ w.pool = v.pool ∧
        (account ≠ x.operator → required ≤ v.pool.allowance account x.operator asset))
      (fun _ w => ∃ u, v.Path [] u ∧ u.Still w) v := by
  rw [checkDelegation]
  split
  · rename_i hself
    exact ⟨.refl v, rfl, fun hne => absurd hself hne⟩
  · rw [ends_bind, onVenue_ends]
    refine (Venue.borrowAllowance_ends v account x.operator asset).mono (fun available w h => ?_)
      (fun _ w h => ⟨v, .refl v, h⟩)
    obtain ⟨hpath, hpool, rfl⟩ := h
    split
    · exact ⟨w, hpath, .refl w⟩
    · rename_i hlt
      exact ⟨hpath, hpool, fun _ => BitVec.not_lt.mp hlt⟩

theorem checkPreconditions_ends (s : Schedule) (v : Venue) :
    (checkPreconditions x account asset s).Ends
      (fun _ w => v.Path [] w ∧ w.pool = v.pool ∧ x.Admits account asset s v.pool)
      (fun _ w => ∃ u, v.Path [] u ∧ u.Still w) v := by
  rw [checkPreconditions, ends_bind, onVenue_ends]
  refine (Venue.reserve_ends v asset).mono (fun r w h => ?_) (fun _ w h => ⟨v, .refl v, h⟩)
  obtain ⟨hpath, hpool, hreserve⟩ := h
  split
  · exact ⟨w, hpath, .refl w⟩
  split
  · exact ⟨w, hpath, .refl w⟩
  split
  · exact ⟨w, hpath, .refl w⟩
  rename_i hborrowable hprincipal hloops
  refine (checkDelegation_ends x account asset s.totalBorrow w).mono (fun _ u h => ?_) (fun _ u h => ?_)
  · obtain ⟨hpath', hpool', hdelegated⟩ := h
    have hactive : r.active ∧ r.borrowingEnabled := by
      simpa [Reserve.isBorrowable] using hborrowable
    rw [hpool] at hdelegated
    exact ⟨hpath.trans hpath', hpool'.trans hpool,
      ⟨r, hreserve, hactive⟩, hprincipal, Nat.le_of_not_lt hloops, hdelegated⟩
  · obtain ⟨t, hpath', hstill⟩ := h
    exact ⟨t, hpath.trans hpath', hstill⟩

theorem carryOut_of_ends {act : RunM HealthReport} {v : Venue} {P : HealthReport → Run → Prop}
    {E : Halt EngineError → Run → Prop} (h : act.Ends P E { venue := v }) :
    (carryOut act).Ends
      (fun ending w => w = ending.run.venue ∧
        (∀ health, ending.outcome = .ok health → P health ending.run) ∧
        ∀ cause, ending.outcome = .error cause → E (.refused cause) ending.run)
      (fun e w => ∃ trap run, e = .trapped trap ∧ w = run.venue ∧ E (.trapped trap) run) v := by
  unfold Ends at h
  unfold Ends carryOut
  simp only [Action.attempt]
  rcases hrun : act { venue := v } with ⟨health, run⟩ | ⟨_ | _, run⟩
  all_goals rw [hrun] at h
  · refine ⟨rfl, fun _ hok => ?_, fun _ herr => by cases herr⟩
    cases hok
    exact h
  · refine ⟨rfl, fun _ hok => (by cases hok), fun _ herr => ?_⟩
    cases herr
    exact h
  · exact ⟨_, run, rfl, rfl, h⟩

theorem carryOut_ends (n : Nat) (s : Schedule) (v : Venue) :
    (carryOut (own.execute x account asset s)).Ends
      (fun ending w =>
        (∀ health, ending.outcome = .ok health →
          v.Path (script x.operator account asset s (v.pool.nextTicket asset s.totalBorrow)) w ∧
          v.flashFee s.totalBorrow = v.pool.flashFee s.totalBorrow ∧ ending.run.stage = .repaying) ∧
        ∀ cause, ending.outcome = .error cause → v.Halted (Op.Own account n) w)
      (fun e w => (∃ trap, e = .trapped trap) ∧ v.Halted (Op.Own account n) w) v := by
  refine (carryOut_of_ends (execute_ends x account asset n s { venue := v })).mono
    (fun ending w h => ?_) (fun e w h => ?_)
  · obtain ⟨rfl, hok, herr⟩ := h
    exact ⟨hok, herr⟩
  · obtain ⟨trap, run, rfl, rfl, hhalted⟩ := h
    exact ⟨⟨trap, rfl⟩, hhalted⟩

/-- How a run that does not commit leaves the checkpoint `id`. -/
inductive Aborted (account : Address) (n id : Nat) (v : Venue) : EngineError → Venue → Prop
  | reverted {cause : EngineError} {u w : Venue} (halted : v.Halted (Op.Own account n) u)
    (last : u.Last .revertTo [.revert id] w) (clear : u.Clear .revertTo)
    (effect : u.pool.Effect (.revert id) .done w.pool) : Aborted account n id v cause w
  | stuck {cause : EngineError} {rollback : PoolError} {u w : Venue}
    (halted : v.Halted (Op.Own account n) u) (last : u.Last .revertTo [] w) (same : w.pool = u.pool)
    (unreached : u.Clear .revertTo → u.pool.journals.get? id = none) :
    Aborted account n id v (.rollbackFailed cause rollback) w

theorem abort_ends {n id : Nat} {v u : Venue} (run : Run) (cause : EngineError)
    (h : v.Halted (Op.Own account n) u) :
    (abort id run cause).Ends
      (fun ending w => (∀ health, ending.outcome ≠ .ok health) ∧
        ∀ e, ending.outcome = .error e → Aborted account n id v e w)
      (fun _ _ => False) u := by
  rw [abort, ends_bind, ends_attempt]
  refine (Venue.revert_ends id u).mono (fun _ w hw => ?_) (fun e w hw => ?_)
  · obtain ⟨hlast, hclear, heffect⟩ := hw
    refine ⟨fun _ hok => (by cases hok), fun e he => ?_⟩
    cases he
    exact .reverted h hlast hclear heffect
  · obtain ⟨hlast, hpool, ⟨rollback, rfl⟩, hunreached⟩ := hw
    refine ⟨fun _ hok => (by cases hok), fun e he => ?_⟩
    cases he
    exact .stuck h hlast hpool hunreached

theorem underCheckpoint_ends (n id : Nat) (s : Schedule) (v : Venue)
    (hn : n < (v.pool.nextTicket asset s.totalBorrow).id) :
    (underCheckpoint id (own.execute x account asset s)).Ends
      (fun ending w =>
        (∀ health, ending.outcome = .ok health →
          v.Path (script x.operator account asset s (v.pool.nextTicket asset s.totalBorrow) ++
            [.commit id]) w ∧
          v.flashFee s.totalBorrow = v.pool.flashFee s.totalBorrow) ∧
        ∀ cause, ending.outcome = .error cause → Aborted account n id v cause w)
      (fun e w => (∃ trap, e = .trapped trap) ∧ v.Halted (Op.Own account n) w) v := by
  rw [underCheckpoint, ends_bind]
  refine (carryOut_ends x account asset n s v).mono (fun ending u h => ?_) (fun _ _ h => h)
  obtain ⟨outcome, run⟩ := ending
  cases outcome with
  | error cause =>
    refine (abort_ends account run cause (h.2 cause rfl)).mono (fun _ _ h' => ?_)
      (fun _ _ h' => h'.elim)
    exact ⟨fun _ hok => absurd hok (h'.1 _), h'.2⟩
  | ok health =>
    obtain ⟨hpath, hfee, hstage⟩ := h.1 health rfl
    have hown := script_own x.operator account asset s hn
    show (conclude id run health).Ends _ _ u
    rw [conclude, ends_bind, ends_attempt, onVenue_ends]
    refine (Venue.commit_ends id u).mono (fun _ w hcommit => ?_) (fun e w hcommit => ?_)
    · -- A run that is repaying may settle, so nothing is refused past the commit.
      have hlegal : run.stage.leadsTo .settled = .ok true := by
        rw [show run.stage = .repaying from hstage]
        rfl
      show Ends (Action.ofTrap (run.stage.leadsTo .settled) >>= _) _ _ w
      rw [ends_bind, hlegal, ends_ofTrap]
      refine ⟨fun legal hlegal => ?_, fun _ h => by cases h⟩
      cases hlegal
      exact ⟨fun _ _ => ⟨hpath.trans hcommit, hfee⟩, fun _ h => by cases h⟩
    · obtain ⟨hstill, cause, rfl⟩ := hcommit
      refine (abort_ends account run _ ⟨_, u, hown, hpath, hstill⟩).mono (fun _ _ h' => ?_)
        (fun _ _ h' => h'.elim)
      exact ⟨fun _ hok => absurd hok (h'.1 _), h'.2⟩

/-- All that a run carries out from its checkpoint to its commit. -/
def wholeScript (s : Schedule) (p : Pool) : List Op :=
  .checkpoint account :: (script x.operator account asset s (p.nextTicket asset s.totalBorrow) ++
    [.commit (p.lastCheckpoint + 1)])

theorem list_not_mem_wholeScript (s : Schedule) (p : Pool) (r : Reserve) :
    .list r ∉ wholeScript x account asset s p := by
  intro hmem
  rcases List.mem_cons.mp hmem with h | hmem
  · cases h
  rcases List.mem_append.mp hmem with h | h
  · exact script_own x.operator account asset s (Nat.lt_succ_self p.lastTicket) _ h
  · cases List.mem_singleton.mp h

/-- A run that settles, from before its checks to after its position is read. -/
structure Settles (s : Schedule) (v : Venue) (receipt : Receipt) (w : Venue) : Prop where
  admitted : x.Admits account asset s v.pool
  carried : v.pool.Carried (wholeScript x account asset s v.pool) w.pool
  done : w.done = (wholeScript x account asset s v.pool).reverse ++ v.done
  fee : v.flashFee s.totalBorrow = v.pool.flashFee s.totalBorrow
  clear : v.Clear .position
  schedule : receipt.schedule = s
  flashFee : receipt.flashFee = v.flashFee s.totalBorrow
  read : w.calls.count .position = v.calls.count .position + 1

/-- A run that is refused with the given cause. -/
inductive Refuses (s : Schedule) (v : Venue) : EngineError → Venue → Prop
  | early {cause : EngineError} {u w : Venue} (path : v.Path [] u) (still : u.Still w) :
    Refuses s v cause w
  | aborted {cause : EngineError} {u w : Venue} (path : v.Path [.checkpoint account] u)
    (aborted : Aborted account v.pool.lastTicket (v.pool.lastCheckpoint + 1) u cause w) :
    Refuses s v cause w
  | unread {cause : PoolError} {u w : Venue} (path : v.Path (wholeScript x account asset s v.pool) u)
    (last : u.Last .position [] w) (same : w.pool = u.pool) (fault : ¬ u.Clear .position) :
    Refuses s v (EngineError.ofPool cause) w

/-- What a run carries out before it commits. -/
def Uncommitted (n : Nat) (op : Op) : Prop := op = .checkpoint account ∨ op.Own account n

theorem checkpoint_ends (v : Venue) :
    (Venue.checkpoint account).Ends
      (fun id w => v.Path [.checkpoint account] w ∧ id = v.pool.lastCheckpoint + 1 ∧
        w.pool = v.pool.openJournal account)
      (fun _ w => v.Still w) v := by
  refine (Venue.perform_ends (by simp [Venue.Call.Late]) (checkpoint_does account v.pool)).mono
    (fun id w h => ?_) (fun _ _ h => h)
  obtain ⟨hid, -, hpool⟩ := h.2.opened
  exact ⟨h.1, hid, hpool⟩

theorem opening_ends (s : Schedule) (v : Venue) :
    (opening x account asset s).Ends
      (fun id u => v.Path [.checkpoint account] u ∧ id = v.pool.lastCheckpoint + 1 ∧
        u.pool = v.pool.openJournal account ∧ x.Admits account asset s v.pool)
      (fun _ w => ∃ u, v.Path [] u ∧ u.Still w) v := by
  rw [opening, ends_bind]
  refine (checkPreconditions_ends x account asset s v).mono (fun _ w h => ?_) (fun _ _ h => h)
  obtain ⟨hpath, hpool, hadmits⟩ := h
  rw [onVenue_ends]
  refine (checkpoint_ends account w).mono (fun id u h => ?_) (fun _ _ h => ⟨w, hpath, h⟩)
  obtain ⟨hopen, hid, hopened⟩ := h
  rw [hpool] at hid hopened
  exact ⟨hpath.trans hopen, hid, hopened, hadmits⟩

theorem report_ends {v : Venue} (hlisted : asset ∈ v.pool.assets) (s : Schedule) (plan : Option Plan)
    (health : HealthReport) (run : Run) :
    (own.report account asset s plan ⟨.ok health, run⟩).Ends
      (fun receipt w => v.Last .position [] w ∧ w.pool = v.pool ∧ v.Clear .position ∧
        receipt.schedule = s ∧ receipt.flashFee = v.flashFee s.totalBorrow ∧ receipt.health = health ∧
        receipt.steps = run.steps.reverse)
      (fun e w => v.Last .position [] w ∧ w.pool = v.pool ∧ ¬ v.Clear .position ∧
        ∃ cause, e = .refused (EngineError.ofPool cause)) v := by
  rw [report, ends_bind, onVenue_ends]
  refine (Venue.position_ends hlisted).mono (fun _ w h => ?_) (fun e w h => ?_)
  · obtain ⟨hlast, hclear, hpool, -⟩ := h
    refine ⟨hlast, hpool, hclear, rfl, ?_, rfl, rfl⟩
    show w.flashFee s.totalBorrow = v.flashFee s.totalBorrow
    rw [Venue.flashFee, Venue.flashFee, Venue.feeBps, Venue.feeBps, hlast.quotedFeeBps, hpool]
  · obtain ⟨hlast, hfault, hpool, cause, rfl⟩ := h
    exact ⟨hlast, hpool, hfault, cause, rfl⟩

theorem underCheckpoint_opened {s : Schedule} {v u : Venue} (hopen : v.Path [.checkpoint account] u)
    (hpool : u.pool = v.pool.openJournal account) (hadmits : x.Admits account asset s v.pool) :
    (underCheckpoint (v.pool.lastCheckpoint + 1) (own.execute x account asset s)).Ends
      (fun ending w =>
        (∀ health, ending.outcome = .ok health → v.Path (wholeScript x account asset s v.pool) w ∧
          asset ∈ w.pool.assets ∧ v.flashFee s.totalBorrow = v.pool.flashFee s.totalBorrow) ∧
        ∀ cause, ending.outcome = .error cause →
          Aborted account v.pool.lastTicket (v.pool.lastCheckpoint + 1) u cause w)
      (fun e w => (∃ trap, e = .trapped trap) ∧ v.Halted (Uncommitted account v.pool.lastTicket) w) u := by
  have hticket : u.pool.nextTicket asset s.totalBorrow = v.pool.nextTicket asset s.totalBorrow := by
    rw [hpool]
    rfl
  have hfresh : v.pool.lastTicket < (u.pool.nextTicket asset s.totalBorrow).id := by
    rw [hticket]
    exact Nat.lt_succ_self v.pool.lastTicket
  refine (underCheckpoint_ends x account asset v.pool.lastTicket _ s u hfresh).mono
    (fun ending w h => ⟨fun health hok => ?_, h.2⟩) (fun e w h => ?_)
  · obtain ⟨hpath, hfee⟩ := h.1 health hok
    rw [hticket] at hpath
    have hwhole : v.Path (wholeScript x account asset s v.pool) w := hopen.trans hpath
    obtain ⟨r, hr, -⟩ := hadmits.borrowable
    refine ⟨hwhole, ?_, ?_⟩
    · rw [hwhole.pool.assets_eq (list_not_mem_wholeScript x account asset s v.pool)]
      exact mem_assets_of_reserve? hr
    · rwa [← hopen.flashFee_eq, ← hopen.charged_eq]
  · obtain ⟨htrap, ops, t, hops, hpath, hstill⟩ := h
    refine ⟨htrap, .checkpoint account :: ops, t, fun op hop => ?_, hopen.trans hpath, hstill⟩
    rcases List.mem_cons.mp hop with rfl | hop
    · exact .inl rfl
    · exact .inr (hops op hop)

theorem runSchedule_eq (s : Schedule) (plan : Option Plan) : runSchedule x account asset s plan =
    (opening x account asset s >>= fun id =>
      underCheckpoint id (own.execute x account asset s) >>= own.report account asset s plan) := rfl

/-- Receipts are made out for runs that have been accepted and committed. -/
theorem runSchedule_ensures {P : Receipt → Venue → Prop} {s : Schedule} {plan : Option Plan} {v : Venue}
    (h : ∀ id u health run w, opening x account asset s v = .ok id u →
      underCheckpoint id (own.execute x account asset s) u = .ok ⟨.ok health, run⟩ w →
      (own.report account asset s plan ⟨.ok health, run⟩).Ends P (fun _ _ => True) w) :
    (runSchedule x account asset s plan).Ends P (fun _ _ => True) v := by
  rw [runSchedule_eq, ends_bind]
  refine .of_run (fun id u hopened => ?_) (fun _ _ _ => trivial)
  rw [ends_bind]
  refine .of_run (fun ending w hclosed => ?_) (fun _ _ _ => trivial)
  obtain ⟨cause | health, run⟩ := ending
  · trivial
  · exact h id u health run w hopened hclosed

theorem runSchedule_ends (s : Schedule) (plan : Option Plan) (v : Venue) :
    (runSchedule x account asset s plan).Ends (fun receipt w => Settles x account asset s v receipt w)
      (fun e w => (∀ cause, e = .refused cause → Refuses x account asset s v cause w) ∧
        ∀ trap, e = .trapped trap → v.Halted (Uncommitted account v.pool.lastTicket) w) v := by
  rw [runSchedule_eq, ends_bind]
  refine (opening_ends x account asset s v).mono (fun id u h => ?_) (fun e w h => ?_)
  case refine_2 =>
    obtain ⟨u, hpath, hstill⟩ := h
    exact ⟨fun _ _ => .early hpath hstill, fun _ _ => ⟨[], u, List.forall_mem_nil _, hpath, hstill⟩⟩
  obtain ⟨hopen, rfl, hpool, hadmits⟩ := h
  rw [ends_bind]
  refine (underCheckpoint_opened x account asset hopen hpool hadmits).mono (fun ending u' h => ?_)
    (fun e w h => ?_)
  case refine_2 =>
    obtain ⟨⟨trap, rfl⟩, hhalted⟩ := h
    exact ⟨nofun, fun _ _ => hhalted⟩
  obtain ⟨outcome, run⟩ := ending
  cases outcome with
  | error cause =>
    refine ⟨fun cause' hcause => ?_, nofun⟩
    cases hcause
    exact .aborted hopen (h.2 cause rfl)
  | ok health =>
    obtain ⟨hpath, hlisted, hfee⟩ := h.1 health rfl
    refine (report_ends account asset hlisted s plan health run).mono (fun receipt w h => ?_)
      (fun e w h => ?_)
    · obtain ⟨hlast, hsame, hclear, hschedule, hquoted, -⟩ := h
      refine ⟨hadmits, hsame ▸ hpath.pool, hlast.done.trans hpath.done, hfee, ?_, hschedule,
        hquoted.trans (hpath.flashFee_eq _), ?_⟩
      · exact hclear.of_same hpath.faults.symm (hpath.quiet _ (.inr rfl)).symm
      · rw [hlast.calls, List.count_cons_self, hpath.quiet _ (.inr rfl)]
    · obtain ⟨hlast, hsame, hfault, cause, rfl⟩ := h
      refine ⟨fun cause' hcause => ?_, nofun⟩
      cases hcause
      exact .unread hpath hlast hsame hfault

end Executor

/-- What a run in a token is asked to do. -/
inductive Request where
  | planned (principal : Word) (plan : Plan)
  | single (principal borrow : Word)
  deriving DecidableEq, Repr

namespace Request

/-- The tranches of a request, if they stay within 256 bits. -/
def schedule? : Request → Option Schedule
  | .planned principal plan => (Schedule.ofPlan principal plan).toOption
  | .single principal borrow => some (.single principal borrow)

end Request

namespace Executor

def serve (x : Executor) (account asset : Address) : Request → ExecM Receipt
  | .planned principal plan => runPlan x account asset principal plan
  | .single principal borrow => runSingle x account asset principal borrow

section
variable (x : Executor) (account asset : Address)

/-- A request is the run of its schedule, or it is refused at once: what holds of both holds of every request. -/
theorem serve_of_runSchedule {C : ExecM Receipt → Prop} (request : Request)
    (hrun : ∀ s plan, request.schedule? = some s → C (runSchedule x account asset s plan))
    (hrefused : ∀ cause, C (Action.refuse cause)) : C (serve x account asset request) := by
  cases request with
  | single principal borrow => exact hrun (.single principal borrow) none rfl
  | planned principal plan =>
    rw [serve, runPlan]
    split
    · exact hrefused _
    split
    · exact hrefused _
    cases hs : Schedule.ofPlan principal plan with
    | error cause => exact hrefused cause
    | ok s =>
      refine hrun s (some plan) ?_
      rw [Request.schedule?, hs]
      rfl

/-- What every run ensures a request ensures. -/
theorem serve_ensures {P : Receipt → Venue → Prop} {E : Halt EngineError → Venue → Prop} {request : Request}
    {v : Venue} (hrun : ∀ s plan, request.schedule? = some s → (runSchedule x account asset s plan).Ends P E v)
    (hrefused : ∀ cause, E (.refused cause) v) : (serve x account asset request).Ends P E v :=
  serve_of_runSchedule x account asset (C := fun act => act.Ends P E v) request hrun hrefused

theorem serve_ends (request : Request) (v : Venue) :
    (serve x account asset request).Ends
      (fun receipt w => ∃ s, request.schedule? = some s ∧ Settles x account asset s v receipt w)
      (fun e w => (∀ cause, e = .refused cause → ∃ s, Refuses x account asset s v cause w) ∧
        ∀ trap, e = .trapped trap → v.Halted (Uncommitted account v.pool.lastTicket) w) v := by
  refine serve_ensures x account asset (fun s plan hs => ?_) (fun _ => ?_)
  · exact (runSchedule_ends x account asset s plan v).mono (fun _ _ h => ⟨s, hs, h⟩)
      (fun _ _ h => ⟨fun cause hcause => ⟨s, h.1 cause hcause⟩, h.2⟩)
  · exact ⟨fun _ _ => ⟨⟨0, []⟩, .early (.refl v) (.refl v)⟩, nofun⟩

theorem refuses_of_serve {request : Request} {v w : Venue} {cause : EngineError}
    (hrun : serve x account asset request v = .error (.refused cause) w) :
    ∃ s, Refuses x account asset s v cause w :=
  ((serve_ends x account asset request v).of_error hrun).1 cause rfl

end

end Executor
end Gearing
