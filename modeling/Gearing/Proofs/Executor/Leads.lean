import Gearing.Proofs.Executor.Atomic

/-!
From the venue that a run finds to the one that it leaves, whether it settled or was refused: the operations
that were carried out lead from the one pool to the other, and no fault is added or taken away.
-/
namespace Gearing
open Gearing.Action Pool

namespace Venue

/-- A stretch of calls, with what it carries out. -/
structure Leads (v : Venue) (ops : List Op) (w : Venue) : Prop where
  done : w.done = ops.reverse ++ v.done
  pool : v.pool.Carried ops w.pool
  faults : w.faults = v.faults
  quotedFeeBps : w.quotedFeeBps = v.quotedFeeBps

variable {u v w : Venue} {ops : List Op}

theorem Path.leads (h : v.Path ops w) : v.Leads ops w :=
  ⟨h.done, h.pool, h.faults, h.quotedFeeBps⟩

theorem Still.leads (h : v.Still w) (hlisted : v.pool.LoansListed) : v.Leads [] w :=
  ⟨h.done, h.pool hlisted ▸ .nil v.pool, h.faults, h.quotedFeeBps⟩

theorem Last.leads {c : Call} (h : v.Last c [] w) (hpool : w.pool = v.pool) : v.Leads [] w :=
  ⟨h.done, hpool ▸ .nil v.pool, h.faults, h.quotedFeeBps⟩

namespace Leads

theorem trans {xs ys : List Op} (h : u.Leads xs v) (h' : v.Leads ys w) : u.Leads (xs ++ ys) w where
  done := by rw [h'.done, h.done, List.reverse_append, List.append_assoc]
  pool := h.pool.append h'.pool
  faults := h'.faults.trans h.faults
  quotedFeeBps := h'.quotedFeeBps.trans h.quotedFeeBps

theorem since_eq (h : v.Leads ops w) : v.since w = ops := Venue.since_eq h.done

end Leads

theorem Halted.leads {kind : Op → Prop} (h : v.Halted kind w) (hsound : v.pool.Sound) :
    ∃ ops, v.Leads ops w := by
  obtain ⟨ops, u, -, hpath, hstill⟩ := h
  exact ⟨_, hpath.leads.trans (hstill.leads (hpath.pool.sound hsound).loansListed)⟩

end Venue

namespace Executor
variable {x : Executor} {account asset : Address} {s : Schedule} {v w : Venue} {cause : EngineError}

theorem Aborted.leads {n id : Nat} (h : Aborted account n id v cause w) (hsound : v.pool.Sound) :
    ∃ ops, v.Leads ops w := by
  cases h with
  | @reverted _ u _ halted last clear effect =>
    obtain ⟨ops, hleads⟩ := halted.leads hsound
    exact ⟨ops ++ [.revert id],
      hleads.trans ⟨by simpa using last.done, .single effect, last.faults, last.quotedFeeBps⟩⟩
  | stuck halted last same =>
    obtain ⟨ops, hleads⟩ := halted.leads hsound
    exact ⟨_, hleads.trans (last.leads same)⟩

theorem Refuses.leads (h : Refuses x account asset s v cause w) (hsound : v.pool.Sound) :
    ∃ ops, v.Leads ops w := by
  cases h with
  | early path still =>
    exact ⟨_, path.leads.trans (still.leads (path.pool.sound hsound).loansListed)⟩
  | aborted path aborted =>
    obtain ⟨ops, hleads⟩ := aborted.leads (path.pool.sound hsound)
    exact ⟨_, path.leads.trans hleads⟩
  | unread path last same => exact ⟨_, path.leads.trans (last.leads same)⟩

theorem Refuses.sameState (h : Refuses x account asset s v cause w) (hsound : v.pool.Sound)
    (hfaults : v.faults = []) (hexact : v.pool.Exact (v.since w)) : w.pool.SameState v.pool := by
  cases h with
  | early path still =>
    have hu := path.pool.history_eq
    rw [still.pool (path.pool.sound hsound).loansListed, ← hu]
    exact ⟨.refl _, fun _ => rfl⟩
  | unread path last same fault =>
    exact absurd (Venue.clear_of_faults (path.faults.trans hfaults) _) fault
  | aborted path aborted =>
    exact aborted.sameState hsound path hexact (Venue.clear_of_faults hfaults _)

variable (x account asset)

theorem runSchedule_leads (s : Schedule) (plan : Option Plan) (v : Venue) :
    (runSchedule x account asset s plan).Ends
      (fun _ w => v.Leads (wholeScript x account asset s v.pool) w) (fun _ _ => True) v := by
  refine runSchedule_ensures x account asset fun id u health run u' hopened hclosed => ?_
  obtain ⟨hopen, rfl, hpool, hadmits⟩ := (opening_ends x account asset s v).of_ok hopened
  obtain ⟨hpath, hlisted, -⟩ :=
    ((underCheckpoint_opened x account asset hopen hpool hadmits).of_ok hclosed).1 health rfl
  refine (report_ends account asset hlisted s plan health run).mono (fun _ w h => ?_) (fun _ _ _ => trivial)
  obtain ⟨hlast, hsame, -⟩ := h
  have hleads := hpath.leads.trans (hlast.leads hsame)
  rwa [List.append_nil] at hleads

theorem serve_leads (request : Request) (hsound : v.pool.Sound) :
    (serve x account asset request).Ends (fun _ w => ∃ ops, v.Leads ops w)
      (fun e w => ∀ cause, e = .refused cause → ∃ ops, v.Leads ops w) v := by
  refine serve_ensures x account asset (fun s plan _ => ?_) (fun _ _ _ => ⟨[], (Venue.Path.refl v).leads⟩)
  refine ((runSchedule_leads x account asset s plan v).and (runSchedule_ends x account asset s plan v)).mono
    (fun _ _ h => ⟨_, h.1⟩) (fun _ _ h cause hcause => ?_)
  exact (h.2.1 cause hcause).leads hsound

end Executor
end Gearing
