import Gearing.Proofs.Executor.Leads
import Gearing.Proofs.Executor.Committed
import Gearing.Proofs.Pool.Books

/-!
A run leaves the books of every reserve as even as it found them: a settled run by what its operations move,
a refused one because nothing of it is left. Native coin is wrapped and unwrapped beside the books.
-/
namespace Gearing
open Gearing.Action Pool

namespace Pool

theorem Op.plain_of_own {op : Op} {account : Address} {n : Nat} (h : op.Own account n) : op.Plain := by
  cases op with
  | list | updateReserve | revert => cases h
  | _ => trivial

end Pool

namespace Executor
variable (x : Executor) (account asset : Address) {v : Venue}

theorem wholeScript_plain (s : Schedule) (p : Pool) :
    ∀ op ∈ wholeScript x account asset s p, op.Plain ∧ ∀ c, op.supplies c = 0 := by
  intro op hop
  rcases List.mem_cons.mp hop with rfl | hop
  · exact ⟨trivial, fun _ => rfl⟩
  rcases List.mem_append.mp hop with hop | hop
  · have hown := script_own x.operator account asset s (Nat.lt_succ_self p.lastTicket) op hop
    exact ⟨Op.plain_of_own hown, Op.supplies_own hown⟩
  · rw [List.mem_singleton.mp hop]
    exact ⟨trivial, fun _ => rfl⟩

/-- A stretch of calls that is over: where the indices are one and nothing wrapped, the books have gained
nothing. -/
def Balanced (v w : Venue) : Prop :=
  ∃ ops, v.Leads ops w ∧
    (v.pool.UnitIndices → v.pool.Exact ops → Gains (fun _ => 0) v.pool w.pool)

namespace Balanced
variable {u v w : Venue}

theorem of_still (h : v.Still w) (hsound : v.pool.Sound) : Balanced v w := by
  refine ⟨[], h.leads hsound.loansListed, fun hunit _ => ?_⟩
  rw [h.pool hsound.loansListed]
  exact .refl hsound hunit

theorem refl (hsound : v.pool.Sound) : Balanced v v :=
  .of_still (.refl v) hsound

theorem of_leads {ops : List Op} (h : v.Leads ops w)
    (hops : ∀ op ∈ ops, op.Plain ∧ ∀ c, op.supplies c = 0) (hsound : v.pool.Sound) : Balanced v w := by
  refine ⟨ops, h, fun hunit hexact => ?_⟩
  have hgains := Gains.of_carried h.pool (fun op hop => (hops op hop).1) hsound hunit hexact
  refine hgains.cast fun c => List.sum_eq_zero_iff_forall_eq_nat.mpr fun n hn => ?_
  obtain ⟨op, hop, rfl⟩ := List.mem_map.mp hn
  exact (hops op hop).2 c

theorem trans (h : Balanced u v) (h' : Balanced v w) : Balanced u w := by
  obtain ⟨ops, hleads, hgains⟩ := h
  obtain ⟨ops', hleads', hgains'⟩ := h'
  refine ⟨ops ++ ops', hleads.trans hleads', fun hunit hexact => ?_⟩
  obtain ⟨hexact, hexact'⟩ := (exact_append _ _ _).mp hexact
  rw [hleads.pool.history_eq] at hexact'
  have hfirst := hgains hunit hexact
  exact hfirst.trans (hgains' hfirst.unit hexact')

theorem sound (h : Balanced v w) (hsound : v.pool.Sound) : w.pool.Sound := by
  obtain ⟨ops, hleads, -⟩ := h
  exact hleads.pool.sound hsound

theorem faults (h : Balanced v w) : w.faults = v.faults := by
  obtain ⟨ops, hleads, -⟩ := h
  exact hleads.faults

theorem gains (h : Balanced v w) (hunit : v.pool.UnitIndices) (hexact : v.pool.Exact (v.since w)) :
    Gains (fun _ => 0) v.pool w.pool := by
  obtain ⟨ops, hleads, hgains⟩ := h
  rw [hleads.since_eq] at hexact
  exact hgains hunit hexact

end Balanced

section
variable (hsound : v.pool.Sound) (hfaults : v.faults = [])
include hsound hfaults

theorem serve_balanced (request : Request) :
    (serve x account asset request).Ends (fun _ w => Balanced v w)
      (fun e w => ∀ cause, e = .refused cause → Balanced v w) v := by
  have hends := (serve_ends x account asset request v).and (serve_leads x account asset request hsound)
  refine hends.mono (fun receipt w h => ?_) (fun e w h cause hcause => ?_)
  · obtain ⟨⟨s, -, hsettles⟩, ops, hleads⟩ := h
    obtain rfl : wholeScript x account asset s v.pool = ops :=
      (Venue.since_eq hsettles.done).symm.trans hleads.since_eq
    exact .of_leads hleads (wholeScript_plain x account asset s v.pool) hsound
  · obtain ⟨s, hrefuses⟩ := h.1.1 cause hcause
    obtain ⟨ops, hleads⟩ := h.2 cause hcause
    refine ⟨ops, hleads, fun hunit hexact => ?_⟩
    rw [← hleads.since_eq] at hexact
    exact .of_sameState (hrefuses.sameState hsound hfaults hexact) (hleads.pool.sound hsound) hunit

/-- Whether or not a refused native run gives its value back, the books do not show it. -/
theorem runNative_balanced (plan : Plan) (attached : Word) :
    (runNative x account plan attached).Ends (fun _ w => Balanced v w)
      (fun e w => ∀ cause, e = .refused cause → Balanced v w) v := by
  have hplain : ∀ op : Op, op = .wrap attached ∨ op = .unwrap attached →
      ∀ op' ∈ [op], op'.Plain ∧ ∀ c, op'.supplies c = 0 := by
    rintro op (rfl | rfl)
    · exact List.forall_mem_singleton.mpr ⟨trivial, fun _ => rfl⟩
    · exact List.forall_mem_singleton.mpr ⟨trivial, fun _ => rfl⟩
  rw [runNative, ends_bind, ends_get]
  split
  · exact fun _ _ => .refl hsound
  split
  · exact fun _ _ => .refl hsound
  rename_i principal _
  rw [ends_bind, onVenue_ends]
  refine (Venue.perform_ends (by simp [Venue.Call.Late]) (wrap_does attached v.pool)).mono
    (fun _ u h => ?_) (fun e w h _ _ => .of_still h hsound)
  obtain ⟨hwrap, heffect⟩ := h
  have hwrapped : Balanced v u := .of_leads hwrap.leads (hplain _ (.inl rfl)) hsound
  rw [ends_bind, ends_attempt]
  refine (serve_balanced x account v.pool.wrappedNative (heffect.sound hsound)
    (hwrap.faults.trans hfaults) (.planned principal plan)).mono (fun receipt w h => hwrapped.trans h)
    (fun e t h => ?_)
  cases e with
  | trapped trap =>
    intro _ h
    cases h
  | refused cause =>
    have hrefused := hwrapped.trans (h cause rfl)
    have hsound' := hrefused.sound hsound
    show Ends (Action.attempt (Venue.unwrap attached) >>= _) _ _ t
    rw [ends_bind, ends_attempt]
    refine (Venue.perform_ends (by simp [Venue.Call.Late]) (unwrap_does attached t.pool)).mono
      (fun _ w h => ?_) (fun e w h => ?_)
    · exact fun _ _ => hrefused.trans (.of_leads h.1.leads (hplain _ (.inr rfl)) hsound')
    · cases e with
      | refused rollback => exact fun _ _ => hrefused.trans (.of_still h hsound')
      | trapped trap =>
        intro _ h
        cases h

end

end Executor
end Gearing
