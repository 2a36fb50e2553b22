import Gearing.Proofs.Pool.Richer
import Gearing.Proofs.Executor.Leads

/-!
Two runs of one account side by side, the second one where there is more to lend. Call by call it does what
the first one does, unless the first one runs out of liquidity, as long as its own arithmetic is exact.
-/
namespace Gearing
open Gearing.Action Pool

namespace Venue

/-- Nothing that was carried out since `base` has left the 256 bits. -/
def ExactSince (base v : Venue) : Prop := base.pool.Exact (base.since v)

theorem ExactSince.of_suffix {base v w : Venue} (hw : base.ExactSince w) (h : v.done <:+ w.done) :
    base.ExactSince v := by
  obtain ⟨later, hlater⟩ := h
  by_cases hlength : base.done.length ≤ v.done.length
  · have hsince : base.since w = base.since v ++ later.reverse := by
      have hcount : w.done.length - base.done.length =
          later.length + (v.done.length - base.done.length) := by
        rw [← hlater, List.length_append]
        omega
      rw [since, since, hcount, ← hlater, List.take_length_add_append, List.reverse_append]
    rw [ExactSince, hsince, exact_append] at hw
    exact hw.1
  · have hnone : base.since v = [] := by
      rw [since, Nat.sub_eq_zero_of_le (Nat.le_of_not_le hlength)]
      rfl
    rw [ExactSince, hnone]
    exact trivial

/-- A program that takes back nothing of what has been carried out. -/
class Extends {ε σ α : Type} (view : σ → Venue) (act : Action ε σ α) : Prop where
  suffix : ∀ s, (view s).done <:+ (view (act.final s)).done

section Programs
variable {ε σ α β : Type} {view : σ → Venue}

theorem extends_of_ends {act : Action ε σ α}
    (h : ∀ s, act.Ends (fun _ t => (view s).done <:+ (view t).done)
      (fun _ t => (view s).done <:+ (view t).done) s) : Extends view act := by
  refine ⟨fun s => ?_⟩
  cases hact : act s with
  | ok a t =>
    rw [final_of_ok hact]
    exact (h s).of_ok hact
  | error e t =>
    rw [final_of_error hact]
    exact (h s).of_error hact

theorem Extends.ends {act : Action ε σ α} (h : Extends view act) (s : σ) :
    act.Ends (fun _ t => (view s).done <:+ (view t).done)
      (fun _ t => (view s).done <:+ (view t).done) s := by
  have hs := h.suffix s
  rw [Ends]
  cases hact : act s with
  | ok a t => rwa [final_of_ok hact] at hs
  | error e t => rwa [final_of_error hact] at hs

instance (a : α) : Extends view (pure a : Action ε σ α) := ⟨fun _ => List.suffix_rfl⟩

instance (cause : ε) : Extends view (refuse cause : Action ε σ α) := ⟨fun _ => List.suffix_rfl⟩

instance : Extends view (get : Action ε σ σ) := ⟨fun _ => List.suffix_rfl⟩

instance (r : Except Trap α) : Extends view (ofTrap r : Action ε σ α) := by
  cases r <;> exact ⟨fun _ => List.suffix_rfl⟩

instance (r : Except (Halt ε) α) : Extends view (Action.ofExcept r : Action ε σ α) := by
  cases r <;> exact ⟨fun _ => List.suffix_rfl⟩

theorem suffix_bind (act : Action ε σ α) {f : α → Action ε σ β} (hf : ∀ a, Extends view (f a)) (s : σ) :
    (view (act.final s)).done <:+ (view ((act >>= f).final s)).done := by
  unfold final
  rw [run_bind]
  cases act s with
  | ok a t => exact (hf a).suffix t
  | error e t => exact List.suffix_rfl

theorem Extends.bind {act : Action ε σ α} {f : α → Action ε σ β} (hact : Extends view act)
    (hf : ∀ a, Extends view (f a)) : Extends view (act >>= f) :=
  ⟨fun s => (hact.suffix s).trans (suffix_bind act hf s)⟩

instance (act : Action ε σ α) (f : α → Action ε σ β) [hact : Extends view act]
    [hf : ∀ a, Extends view (f a)] : Extends view (act >>= f) :=
  hact.bind hf

instance (c : Prop) [Decidable c] (act act' : Action ε σ α) [Extends view act] [Extends view act'] :
    Extends view (if c then act else act') := by
  split <;> infer_instance

instance {ε' : Type} (f : ε → ε') (act : Action ε σ α) [hact : Extends view act] :
    Extends view (act.relabel f) :=
  extends_of_ends fun s => (ends_relabel f act).mpr (hact.ends s)

instance {ε' : Type} (act : Action ε σ α) [hact : Extends view act] :
    Extends view (attempt act : Action ε' σ (Except ε α)) :=
  extends_of_ends fun s => by
    rw [ends_attempt]
    refine (hact.ends s).mono (fun _ _ h => h) (fun e _ h => ?_)
    cases e <;> exact h

instance (c : Call) (act : PoolM α) : Extends id (call c act) :=
  extends_of_ends fun _ => call_ends c
    (fun _ => .of_forall (fun _ _ => List.suffix_rfl) (fun _ _ => List.suffix_rfl))
    (fun _ _ => List.suffix_rfl)

instance (c : Call) (op : Op) (act : PoolM α) : Extends id (perform c op act) :=
  extends_of_ends fun v => by
    rw [perform, ends_bind]
    exact call_ends c
      (fun _ => .of_forall (fun _ _ => List.suffix_cons op v.done) (fun _ _ => List.suffix_rfl))
      (fun _ _ => List.suffix_rfl)

end Programs

/-- The second program matches the first one, unless it leaves the 256 bits. -/
def Follows {ε σ α : Type} (base : Venue) (excused : Halt ε → Prop) (view : σ → Venue)
    (act act' : Action ε σ α) (R : α → σ → α → σ → Prop) (s s' : σ) : Prop :=
  base.ExactSince (view (act'.final s')) → Matches excused act act' R s s'

section Rules
variable {ε σ α β : Type} {base : Venue} {excused : Halt ε → Prop} {view : σ → Venue}
  {R : α → σ → α → σ → Prop} {Q : β → σ → β → σ → Prop} {s s' : σ}

theorem Follows.bind {act act' : Action ε σ α} {f f' : α → Action ε σ β} [hext : ∀ a, Extends view (f' a)]
    (h : base.Follows excused view act act' R s s')
    (hf : ∀ a t a' t', R a t a' t' → base.Follows excused view (f a) (f' a') Q t t') :
    base.Follows excused view (act >>= f) (act' >>= f') Q s s' := by
  intro hexact
  have hmatches := h (hexact.of_suffix (suffix_bind act' hext s'))
  rw [Matches, ends_bind]
  refine Ends.mono hmatches (fun a t ha => ?_) (fun e _ he => ?_)
  · obtain ⟨a', t', hact', hR⟩ := ha
    rw [final, run_bind, hact'] at hexact
    rw [run_bind, hact']
    exact hf a t a' t' hR hexact
  · exact he.imp_right (Exists.imp fun t' hact' => by rw [run_bind, hact'])

theorem Follows.relabel {ε' : Type} {excused' : Halt ε' → Prop} {act act' : Action ε σ α} (f : ε → ε')
    (h : base.Follows excused view act act' R s s') (he : ∀ e, excused e → excused' (e.relabel f)) :
    base.Follows excused' view (act.relabel f) (act'.relabel f) R s s' := by
  intro hexact
  have hfinal : (act'.relabel f).final s' = act'.final s' := by
    simp only [final, Action.relabel]
    rcases act' s' with ⟨_, _⟩ | ⟨_ | _, _⟩ <;> rfl
  rw [hfinal] at hexact
  exact (h hexact).relabel f he

theorem follows_get_bind {f f' : σ → Action ε σ β} (h : base.Follows excused view (f s) (f' s') Q s s') :
    base.Follows excused view (get >>= f) (get >>= f') Q s s' :=
  fun hexact => matches_get_bind (h hexact)

end Rules

/-- `v'` has `extra` more to lend than `v`, no call of either is scripted to fail, and operations have led
to `v'` from `base`. -/
structure Abreast (base : Venue) (account : Address) (extra : Address → Word) (v v' : Venue) : Prop where
  pool : Richer account extra v.pool v'.pool
  faults : v.faults = []
  faults' : v'.faults = []
  quoted : v'.quotedFeeBps = v.quotedFeeBps
  leads : ∃ ops, base.Leads ops v'

section Calls
variable {α : Type} {base v v' : Venue} {account : Address} {extra : Address → Word}

theorem Abreast.flashFee (h : base.Abreast account extra v v') (amount : Word) :
    v'.flashFee amount = v.flashFee amount := by
  rw [Venue.flashFee, Venue.flashFee, feeBps, feeBps, h.quoted, h.pool.feeBps]

theorem call_matches (c : Call) {act act' : PoolM α} {R : α → Pool → α → Pool → Prop}
    (hfaults : v.faults = []) (hfaults' : v'.faults = [])
    (h : Matches Short act act' R v.pool v'.pool) :
    Matches Short (call c act) (call c act')
      (fun a w a' w' => R a w.pool a' w'.pool ∧ w = { v with calls := c :: v.calls, pool := w.pool } ∧
        w' = { v' with calls := c :: v'.calls, pool := w'.pool }) v v' := by
  have hreach : Matches Short (reach act) (reach act')
      (fun a w a' w' => R a w.pool a' w'.pool ∧ w = { v with calls := c :: v.calls, pool := w.pool } ∧
        w' = { v' with calls := c :: v'.calls, pool := w'.pool })
      { v with calls := c :: v.calls } { v' with calls := c :: v'.calls } := by
    unfold reach
    exact Matches.focus (R := R) h fun _ _ _ _ hR => ⟨hR, rfl, rfl⟩
  rw [Matches, Ends, call_of_clear (clear_of_faults hfaults c), call_of_clear (clear_of_faults hfaults' c)]
  exact hreach

theorem query_matches (h : base.Abreast account extra v v') (c : Call) {act act' : PoolM α}
    {S : α → α → Prop} (hact : Matches Short act act'
      (fun a p a' q => p = v.pool ∧ q = v'.pool ∧ S a a') v.pool v'.pool) :
    Matches Short (call c act) (call c act')
      (fun a w a' w' => S a a' ∧ (w.pool = v.pool ∧ w'.pool = v'.pool) ∧
        base.Abreast account extra w w') v v' := by
  refine (call_matches c h.faults h.faults' hact).mono fun a w a' w' hw => ?_
  obtain ⟨⟨hp, hq, ha⟩, hv, hv'⟩ := hw
  refine ⟨ha, ⟨hp, hq⟩, ?_⟩
  obtain ⟨ops, hleads⟩ := h.leads
  rw [hv, hv', hp, hq]
  exact ⟨h.pool, h.faults, h.faults', h.quoted, ops, hleads.done, hleads.pool, hleads.faults,
    hleads.quotedFeeBps⟩

theorem perform_follows (h : base.Abreast account extra v v') (c : Call) {op op' : Op}
    {act act' : PoolM α} {answer : α → Answer} {R : α → Pool → α → Pool → Prop}
    (hdoes : Pool.Does act' op' answer v'.pool)
    (hact : Matches Short act act'
      (fun a p a' q => R a p a' q ∧ (op'.Exact v'.pool → Richer account extra p q)) v.pool v'.pool) :
    base.Follows Short id (perform c op act) (perform c op' act')
      (fun a w a' w' => R a w.pool a' w'.pool ∧ base.Abreast account extra w w') v v' := by
  intro hexact
  have hall : act.Ends (fun _ _ => True) (fun _ _ => True) v.pool :=
    .of_forall (fun _ _ => trivial) (fun _ _ => trivial)
  have hcall := call_matches c h.faults h.faults' (hact.and hall hdoes)
  obtain ⟨ops, hleads⟩ := h.leads
  rw [Matches, perform, ends_bind]
  refine Ends.mono hcall (fun a w hw => ?_) (fun e w he => ?_)
  · obtain ⟨a', w', hrun, ⟨⟨hR, hricher⟩, -, heffect⟩, hw, hw'⟩ := hw
    have hperform : perform c op' act' v' = .ok a' { w' with done := op' :: w'.done } := by
      rw [perform, run_bind, hrun]
      rfl
    have hlater : base.Leads (ops ++ [op']) { w' with done := op' :: w'.done } := by
      refine hleads.trans ⟨?_, .single heffect, ?_, ?_⟩
      all_goals rw [hw']
      rfl
    -- All that led from `base` is exact, so this operation is.
    rw [final_of_ok hperform] at hexact
    have hafter : base.pool.Exact (base.since { w' with done := op' :: w'.done }) := hexact
    rw [hlater.since_eq, exact_append, hleads.pool.history_eq] at hafter
    refine ⟨a', _, hperform, hR, hricher hafter.2.1, ?_, ?_, ?_, _, hlater⟩
    · rw [hw]
      exact h.faults
    · rw [hw']
      exact h.faults'
    · rw [hw, hw']
      exact h.quoted
  · exact he.imp_right (Exists.imp fun w' hrun => by rw [perform, run_bind, hrun])

end Calls
end Venue
end Gearing
