import Gearing.Executor.Receipt
import Gearing.Proofs.Pool.Exact

/-!
The calls of an executor on its venue: what one call does when it goes through and when it does not, and
the operations that a stretch of calls has carried out.
-/
namespace Gearing.Venue
open Gearing.Action

/-- The operations carried out on the way from `v` to `w`. -/
def since (v w : Venue) : List Pool.Op := (w.done.take (w.done.length - v.done.length)).reverse

theorem since_eq {v w : Venue} {ops : List Pool.Op} (h : w.done = ops.reverse ++ v.done) :
    v.since w = ops := by
  have hlength : w.done.length - v.done.length = ops.reverse.length := by
    rw [h, List.length_append]
    omega
  rw [since, hlength, h, List.take_left, List.reverse_reverse]

/-- The next call of this name is not scripted to fail. -/
def Clear (v : Venue) (c : Call) : Prop :=
  ∀ f ∈ v.faults, f.call = c → f.nth ≠ v.calls.count c + 1

instance (v : Venue) (c : Call) : Decidable (v.Clear c) :=
  inferInstanceAs (Decidable (∀ _ ∈ _, _ → _))

theorem fault?_counted (v : Venue) (c : Call) :
    ({ v with calls := c :: v.calls } : Venue).fault? c = none ↔ v.Clear c := by
  simp only [fault?, Option.map_eq_none_iff, List.find?_eq_none, List.count_cons_self,
    decide_eq_true_eq, not_and]
  exact Iff.rfl

theorem Clear.of_same {v w : Venue} {c : Call} (h : v.Clear c) (hfaults : w.faults = v.faults)
    (hcalls : w.calls.count c = v.calls.count c) : w.Clear c := by
  intro f hf hc
  rw [hcalls]
  exact h f (hfaults ▸ hf) hc

theorem clear_of_faults {v : Venue} (h : v.faults = []) (c : Call) : v.Clear c := by
  intro f hf
  rw [h] at hf
  cases hf

theorem call_of_clear {α : Type} {v : Venue} {c : Call} (h : v.Clear c) (act : PoolM α) :
    call c act v = reach act { v with calls := c :: v.calls } := by
  have hnone : ({ v with calls := c :: v.calls } : Venue).fault? c = none := (fault?_counted v c).mpr h
  simp only [call, run_bind, run_modify, run_get, hnone]

theorem perform_of_clear {α : Type} {v : Venue} {c : Call} (hclear : v.Clear c) {op : Pool.Op}
    {act : PoolM α} {answer : α → Pool.Answer} {b : Pool.Answer} {q : Pool}
    (happly : Pool.apply op = do let a ← act; return answer a) (h : v.pool.Effect op b q) :
    ∃ a, answer a = b ∧ perform c op act v =
      .ok a { v with calls := c :: v.calls, pool := q, done := op :: v.done } := by
  have hact := Pool.apply_of_effect h
  rw [happly, run_bind] at hact
  cases hrun : act v.pool with
  | error e q' =>
    rw [hrun] at hact
    cases hact
  | ok a q' =>
    rw [hrun] at hact
    cases hact
    refine ⟨a, rfl, ?_⟩
    rw [perform, run_bind, call_of_clear hclear, reach, Action.focus, hrun]
    rfl

theorem perform_done_of_clear {v : Venue} {c : Call} (hclear : v.Clear c) {op : Pool.Op}
    {act : PoolM Unit} {q : Pool} (happly : Pool.apply op = do act; return .done)
    (h : v.pool.Effect op .done q) :
    perform c op act v = .ok () { v with calls := c :: v.calls, pool := q, done := op :: v.done } := by
  have happly' : Pool.apply op = do let a ← act; return (fun _ : Unit => Pool.Answer.done) a := happly
  obtain ⟨_, -, hrun⟩ := perform_of_clear hclear happly' h
  exact hrun

theorem call_ends {α : Type} {P : α → Venue → Prop} {E : Halt PoolError → Venue → Prop} {v : Venue}
    (c : Call) {act : PoolM α}
    (hreach : v.Clear c → act.Ends (fun a q => P a { v with calls := c :: v.calls, pool := q })
      (fun e q => E e { v with calls := c :: v.calls, pool := q }) v.pool)
    (hfault : ¬ v.Clear c → ∀ cause, E (.refused cause) { v with calls := c :: v.calls }) :
    (call c act).Ends P E v := by
  simp only [call, ends_bind, ends_modify, ends_get]
  cases h : ({ v with calls := c :: v.calls } : Venue).fault? c with
  | none => exact (ends_focus _ _ act).mpr (hreach ((fault?_counted v c).mp h))
  | some cause =>
    refine hfault (fun hclear => ?_) cause
    rw [(fault?_counted v c).mpr hclear] at h
    cases h

/-- The calls that no run makes before its end. -/
def Call.Late (c : Call) : Prop := c = .revertTo ∨ c = .position

/-- A stretch of calls that all go through: what it carries out, and what it leaves alone. -/
structure Path (v : Venue) (ops : List Pool.Op) (w : Venue) : Prop where
  done : w.done = ops.reverse ++ v.done
  pool : v.pool.Carried ops w.pool
  faults : w.faults = v.faults
  quotedFeeBps : w.quotedFeeBps = v.quotedFeeBps
  quiet : ∀ c, Call.Late c → w.calls.count c = v.calls.count c

/-- A call that does not go through: it is counted and carries nothing out. -/
structure Still (v w : Venue) : Prop where
  done : w.done = v.done
  pool : v.pool.LoansListed → w.pool = v.pool
  faults : w.faults = v.faults
  quotedFeeBps : w.quotedFeeBps = v.quotedFeeBps
  quiet : ∀ c, Call.Late c → w.calls.count c = v.calls.count c

/-- A stretch that has carried out operations of one kind and then stopped. -/
def Halted (kind : Pool.Op → Prop) (v w : Venue) : Prop :=
  ∃ ops u, (∀ op ∈ ops, kind op) ∧ v.Path ops u ∧ u.Still w

namespace Path

theorem refl (v : Venue) : v.Path [] v :=
  ⟨rfl, .nil v.pool, rfl, rfl, fun _ _ => rfl⟩

theorem trans {u v w : Venue} {xs ys : List Pool.Op} (h : u.Path xs v) (h' : v.Path ys w) :
    u.Path (xs ++ ys) w where
  done := by rw [h'.done, h.done, List.reverse_append, List.append_assoc]
  pool := h.pool.append h'.pool
  faults := h'.faults.trans h.faults
  quotedFeeBps := h'.quotedFeeBps.trans h.quotedFeeBps
  quiet c hc := (h'.quiet c hc).trans (h.quiet c hc)

theorem charged_eq {v w : Venue} {ops : List Pool.Op} (h : v.Path ops w) (amount : Word) :
    w.pool.flashFee amount = v.pool.flashFee amount := by
  rw [Pool.flashFee, Pool.flashFee, h.pool.feeBps_eq]

theorem flashFee_eq {v w : Venue} {ops : List Pool.Op} (h : v.Path ops w) (amount : Word) :
    w.flashFee amount = v.flashFee amount := by
  rw [flashFee, flashFee, feeBps, feeBps, h.quotedFeeBps, h.pool.feeBps_eq]

end Path

theorem Still.refl (v : Venue) : v.Still v :=
  ⟨rfl, fun _ => rfl, rfl, rfl, fun _ _ => rfl⟩

theorem Halted.of_still {kind : Pool.Op → Prop} {v w : Venue} (h : v.Still w) : v.Halted kind w :=
  ⟨[], v, List.forall_mem_nil kind, .refl v, h⟩

theorem Halted.of_path {kind : Pool.Op → Prop} {v w : Venue} {ops : List Pool.Op}
    (hops : ∀ op ∈ ops, kind op) (h : v.Path ops w) : v.Halted kind w :=
  ⟨ops, w, hops, h, .refl w⟩

theorem Halted.after {kind : Pool.Op → Prop} {u v w : Venue} {ops : List Pool.Op}
    (hops : ∀ op ∈ ops, kind op) (h : u.Path ops v) (h' : v.Halted kind w) : u.Halted kind w := by
  obtain ⟨ops', x, hops', hpath, hstill⟩ := h'
  exact ⟨ops ++ ops', x, List.forall_mem_append.mpr ⟨hops, hops'⟩, h.trans hpath, hstill⟩

theorem quiet_counted {c d : Call} (hc : ¬ Call.Late c) (hd : Call.Late d) (calls : List Call) :
    (c :: calls).count d = calls.count d := by
  have hne : c ≠ d := by
    rintro rfl
    exact hc hd
  exact List.count_cons_of_ne hne

theorem perform_ends {α : Type} {v : Venue} {c : Call} (hc : ¬ Call.Late c) {op : Pool.Op}
    {act : PoolM α} {answer : α → Pool.Answer} (h : Pool.Does act op answer v.pool) :
    (perform c op act).Ends
      (fun a w => v.Path [op] w ∧ v.pool.Effect op (answer a) w.pool) (fun _ w => v.Still w) v := by
  rw [perform, ends_bind]
  refine call_ends c (fun _ => h.mono (fun a q hq => ?_) (fun e q hq => ?_)) (fun _ cause => ?_)
  · exact ⟨⟨rfl, .single hq, rfl, rfl, fun d hd => quiet_counted hc hd _⟩, hq⟩
  · exact ⟨rfl, hq, rfl, rfl, fun d hd => quiet_counted hc hd _⟩
  · exact ⟨rfl, fun _ => rfl, rfl, rfl, fun d hd => quiet_counted hc hd _⟩

theorem query_ends {α : Type} {v : Venue} {c : Call} (hc : ¬ Call.Late c) {act : PoolM α}
    {R : α → Prop} (h : act.Ends (fun a q => q = v.pool ∧ R a) (fun _ q => q = v.pool) v.pool) :
    (call c act).Ends (fun a w => v.Path [] w ∧ w.pool = v.pool ∧ R a) (fun _ w => v.Still w) v := by
  refine call_ends c (fun _ => h.mono (fun a q hq => ?_) (fun e q hq => ?_)) (fun _ cause => ?_)
  · obtain ⟨rfl, hr⟩ := hq
    exact ⟨⟨rfl, .nil v.pool, rfl, rfl, fun d hd => quiet_counted hc hd _⟩, rfl, hr⟩
  · exact ⟨rfl, fun _ => hq, rfl, rfl, fun d hd => quiet_counted hc hd _⟩
  · exact ⟨rfl, fun _ => rfl, rfl, rfl, fun d hd => quiet_counted hc hd _⟩

theorem reserve_ends (v : Venue) (asset : Address) :
    (reserve asset).Ends
      (fun r w => v.Path [] w ∧ w.pool = v.pool ∧ v.pool.reserve? asset = some r)
      (fun _ w => v.Still w) v :=
  query_ends (by simp [Call.Late])
    (Pool.reserve_ends asset (fun _ hr => ⟨rfl, hr⟩) (fun _ _ => rfl))

theorem borrowAllowance_ends (v : Venue) (account delegatee asset : Address) :
    (borrowAllowance account delegatee asset).Ends
      (fun w u => v.Path [] u ∧ u.pool = v.pool ∧ w = v.pool.allowance account delegatee asset)
      (fun _ u => v.Still u) v := by
  refine query_ends (by simp [Call.Late]) ?_
  rw [Pool.borrowAllowance, ends_bind]
  exact Pool.reserve_ends asset (fun _ _ => ⟨rfl, rfl⟩) (fun _ _ => rfl)

theorem snapshot_ends (v : Venue) (account : Address) :
    (snapshot account).Ends
      (fun s w => v.Path [] w ∧ w.pool = v.pool ∧ s = v.pool.snapshot account)
      (fun _ w => v.Still w) v :=
  query_ends (by simp [Call.Late]) ⟨rfl, rfl⟩

end Gearing.Venue
