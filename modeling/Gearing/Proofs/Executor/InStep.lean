import Gearing.Proofs.Executor.Abreast

/-!
The executions of one schedule on two venues, step by step: the cash, the stages and the journal of both are
the same throughout, and so is the health that they are judged by.
-/
namespace Gearing
open Gearing.Action Pool Flash

/-- The halt of a run that found too little to lend. -/
def Executor.Short (e : Halt EngineError) : Prop :=
  ∃ asset asked free, e = .refused (.pool (.insufficientLiquidity asset asked free))

theorem Executor.short_of_pool {e : Halt PoolError} (h : Pool.Short e) :
    Executor.Short (e.relabel EngineError.ofPool) := by
  obtain ⟨asset, asked, free, rfl⟩ := h
  exact ⟨asset, asked, free, rfl⟩

namespace Run
open Venue

section Lifted
variable {α : Type} {base : Venue} {act act' : VenueM α} {R : α → Venue → α → Venue → Prop} {r r' : Run}

theorem final_onVenue (act : VenueM α) (r : Run) :
    ((onVenue act).final r).venue = act.final r.venue := by
  simp only [final, onVenue, Action.focus, Action.relabel]
  rcases act r.venue with ⟨a, w⟩ | ⟨_ | _, w⟩ <;> rfl

instance [hact : Extends id act] : Extends Run.venue (onVenue act) :=
  ⟨fun r => by rw [final_onVenue]; exact hact.suffix r.venue⟩

theorem onVenue_matches (h : Matches Pool.Short act act' R r.venue r'.venue) :
    Matches Executor.Short (onVenue act) (onVenue act')
      (fun a t a' t' => ∃ w w', R a w a' w' ∧ t = { r with venue := w } ∧ t' = { r' with venue := w' })
      r r' := by
  refine Matches.focus (R := R) (h.relabel EngineError.ofPool fun _ => Executor.short_of_pool) ?_
  exact fun a w a' w' hR => ⟨w, w', hR, rfl, rfl⟩

theorem onVenue_follows (h : base.Follows Pool.Short id act act' R r.venue r'.venue) :
    base.Follows Executor.Short Run.venue (onVenue act) (onVenue act')
      (fun a t a' t' => ∃ w w', R a w a' w' ∧ t = { r with venue := w } ∧ t' = { r' with venue := w' })
      r r' := by
  intro hexact
  rw [final_onVenue] at hexact
  exact onVenue_matches (h hexact)

end Lifted

/-- Two runs at the same point, with these loans out. -/
structure InStep (base : Venue) (account : Address) (extra : Address → Word) (ls ls' : Table Nat Loan)
    (r r' : Run) : Prop where
  venue : base.Abreast account extra r.venue r'.venue
  loans : r.venue.pool.loans = ls
  loans' : r'.venue.pool.loans = ls'
  cash : r'.cash = r.cash
  stage : r'.stage = r.stage
  steps : r'.steps = r.steps

section Steps
variable {base : Venue} {account : Address} {extra : Address → Word} {ls ls' : Table Nat Loan}
  {r r' : Run}

theorem InStep.called (h : InStep base account extra ls ls' r r') {w w' : Venue}
    {ls₂ ls₂' : Table Nat Loan} (hvenue : base.Abreast account extra w w') (hloans : w.pool.loans = ls₂)
    (hloans' : w'.pool.loans = ls₂') :
    InStep base account extra ls₂ ls₂' { r with venue := w } { r' with venue := w' } :=
  ⟨hvenue, hloans, hloans', h.cash, h.stage, h.steps⟩

instance (next : Stage) : Extends Run.venue (advance next) :=
  extends_of_ends fun _ => advance_ends next List.suffix_rfl fun _ => List.suffix_rfl

instance (amount : Word) : Extends Run.venue (spend amount) :=
  extends_of_ends fun _ => spend_ends amount (fun _ => List.suffix_rfl) fun _ => List.suffix_rfl

instance (step : Step) : Extends Run.venue (note step) := ⟨fun _ => List.suffix_rfl⟩

instance (amount : Word) : Extends Run.venue (receive amount) := ⟨fun _ => List.suffix_rfl⟩

theorem spend_matches (h : InStep base account extra ls ls' r r') (amount : Word) :
    Matches Executor.Short (spend amount) (spend amount)
      (fun _ t _ t' => InStep base account extra ls ls' t t') r r' := by
  refine matches_get_bind ?_
  rw [h.cash]
  cases hcash : Word.sub? r.cash amount with
  | none => exact matches_refuse
  | some cash => exact matches_of_ok rfl rfl ⟨h.venue, h.loans, h.loans', rfl, h.stage, h.steps⟩

theorem advance_matches (h : InStep base account extra ls ls' r r') (next : Stage) :
    Matches Executor.Short (advance next) (advance next)
      (fun _ t _ t' => InStep base account extra ls ls' t t') r r' := by
  refine matches_get_bind ?_
  rw [h.stage]
  refine matches_ofTrap_bind fun legal _ => ?_
  split
  · exact matches_of_ok rfl rfl ⟨h.venue, h.loans, h.loans', h.cash, rfl, h.steps⟩
  · exact matches_refuse

theorem note_matches (h : InStep base account extra ls ls' r r') (step : Step) :
    Matches Executor.Short (note step) (note step)
      (fun _ t _ t' => InStep base account extra ls ls' t t') r r' :=
  matches_modify ⟨h.venue, h.loans, h.loans', h.cash, h.stage, congrArg (step :: ·) h.steps⟩

theorem receive_matches (h : InStep base account extra ls ls' r r') (amount : Word) :
    Matches Executor.Short (receive amount) (receive amount)
      (fun _ t _ t' => InStep base account extra ls ls' t t') r r' :=
  matches_modify ⟨h.venue, h.loans, h.loans', congrArg (· + amount) h.cash, h.stage, h.steps⟩

end Steps
end Run

namespace Venue
section Calls
variable {base v v' : Venue} {account : Address} {extra : Address → Word}

instance (asset : Address) (amount : Word) (account : Address) : Extends id (deposit asset amount account) :=
  inferInstanceAs (Extends id (perform _ _ _))

instance (asset : Address) (amount : Word) (delegatee account : Address) :
    Extends id (borrow asset amount delegatee account) :=
  inferInstanceAs (Extends id (perform _ _ _))

instance (asset : Address) (amount : Word) (account : Address) : Extends id (acquire asset amount account) :=
  inferInstanceAs (Extends id (perform _ _ _))

instance (ticket : Nat) (paid : Word) : Extends id (repay ticket paid) :=
  inferInstanceAs (Extends id (perform _ _ _))

instance (account : Address) : Extends id (snapshot account) :=
  inferInstanceAs (Extends id (call _ _))

theorem snapshot_matches (h : base.Abreast account extra v v') :
    Matches Pool.Short (snapshot account) (snapshot account)
      (fun s w s' w' => s' = s ∧ (w.pool = v.pool ∧ w'.pool = v'.pool) ∧ base.Abreast account extra w w')
      v v' :=
  query_matches h .accountSnapshot (matches_of_ok rfl rfl ⟨rfl, rfl, h.pool.snapshot⟩)

end Calls
end Venue

namespace Executor
open Venue Run
variable {x : Executor} {base : Venue} {account asset : Address} {extra : Address → Word}
  {ls ls' : Table Nat Loan} {r r' : Run}

section Extends
variable (x account asset)

instance (i : Nat) (amount : Word) : Extends Run.venue (supplyTranche account asset i amount) := by
  unfold supplyTranche
  infer_instance

instance (i : Nat) (amount : Word) : Extends Run.venue (borrowTranche x account asset i amount) := by
  unfold borrowTranche
  infer_instance

instance (i : Nat) (each : Word) (borrows : List Word) :
    Extends Run.venue (rounds x account asset i each borrows) := by
  induction borrows generalizing i each with
  | nil =>
    rw [rounds]
    infer_instance
  | cons next rest ih =>
    have hrest := ih (i + 1) next
    rw [rounds]
    infer_instance

instance (borrowed : Bool) : Extends Run.venue (judge x account borrowed) := by
  unfold judge
  infer_instance

instance (ticket : Ticket) : Extends Run.venue (own.settle ticket) := by
  dsimp only [settle, own]
  infer_instance

instance (s : Schedule) : Extends Run.venue (own.fund account asset s) := by
  unfold fund
  refine Extends.bind inferInstance fun _ => ?_
  dsimp only [own]
  refine Extends.bind ⟨fun _ => List.suffix_rfl⟩ fun _ => ?_
  infer_instance

instance (s : Schedule) : Extends Run.venue (own.execute x account asset s) := by
  unfold execute
  infer_instance

end Extends

theorem supplyTranche_follows (h : InStep base account extra ls ls' r r') (i : Nat) (amount : Word) :
    base.Follows Short Run.venue (supplyTranche account asset i amount)
      (supplyTranche account asset i amount) (fun _ t _ t' => InStep base account extra ls ls' t t')
      r r' := by
  unfold supplyTranche
  refine (onVenue_follows (perform_follows h.venue .deposit (deposit_does asset amount account _)
    (deposit_matches h.venue.pool asset amount))).bind ?_
  rintro _ _ _ _ ⟨w, w', ⟨hloans, hvenue⟩, rfl, rfl⟩
  have hsupplied := h.called hvenue (hloans.1.trans h.loans) (hloans.2.trans h.loans')
  exact fun _ => (spend_matches hsupplied amount).bind fun _ _ _ _ hspent => note_matches hspent _

theorem borrowTranche_follows (h : InStep base account extra ls ls' r r') (i : Nat) (amount : Word) :
    base.Follows Short Run.venue (borrowTranche x account asset i amount)
      (borrowTranche x account asset i amount) (fun _ t _ t' => InStep base account extra ls ls' t t')
      r r' := by
  have hborrow : Matches Pool.Short (Pool.borrow asset amount x.operator account)
      (Pool.borrow asset amount x.operator account)
      (fun _ p _ q => (p.loans = r.venue.pool.loans ∧ q.loans = r'.venue.pool.loans) ∧
        (Op.Exact (.borrow asset amount x.operator account) r'.venue.pool → Richer account extra p q))
      r.venue.pool r'.venue.pool :=
    (borrow_matches h.venue.pool asset amount x.operator).mono fun _ _ _ _ hp => ⟨hp.1, fun _ => hp.2⟩
  unfold borrowTranche
  refine (onVenue_follows (perform_follows h.venue .borrow (borrow_does asset amount x.operator account _)
    hborrow)).bind ?_
  rintro _ _ _ _ ⟨w, w', ⟨hloans, hvenue⟩, rfl, rfl⟩
  have hborrowed := h.called hvenue (hloans.1.trans h.loans) (hloans.2.trans h.loans')
  exact fun _ => (receive_matches hborrowed amount).bind fun _ _ _ _ hheld => note_matches hheld _

theorem rounds_follows (i : Nat) (each : Word) (borrows : List Word)
    (h : InStep base account extra ls ls' r r') :
    base.Follows Short Run.venue (rounds x account asset i each borrows)
      (rounds x account asset i each borrows)
      (fun last t last' t' => last' = last ∧ InStep base account extra ls ls' t t') r r' := by
  induction borrows generalizing i each r r' with
  | nil => exact fun _ => matches_pure ⟨rfl, h⟩
  | cons next rest ih =>
    rw [rounds]
    refine Follows.bind (fun _ => advance_matches h _) fun _ _ _ _ h₁ => ?_
    refine (supplyTranche_follows h₁ i each).bind fun _ _ _ _ h₂ => ?_
    exact (borrowTranche_follows h₂ (i + 1) next).bind fun _ _ _ _ h₃ => ih (i + 1) next h₃

theorem judge_matches (h : InStep base account extra ls ls' r r') (borrowed : Bool) :
    Matches Short (judge x account borrowed) (judge x account borrowed)
      (fun health t health' t' => health' = health ∧ InStep base account extra ls ls' t t') r r' := by
  refine (onVenue_matches (snapshot_matches h.venue)).bind ?_
  rintro s _ _ _ ⟨w, w', ⟨rfl, ⟨hp, hq⟩, hvenue⟩, rfl, rfl⟩
  refine matches_ofExcept_bind fun health _ => ?_
  have hloans : w.pool.loans = ls := by rw [hp, h.loans]
  have hloans' : w'.pool.loans = ls' := by rw [hq, h.loans']
  have hseen := h.called hvenue hloans hloans'
  exact (note_matches hseen _).bind fun _ _ _ _ hnoted => matches_pure ⟨rfl, hnoted⟩

theorem settle_follows {t t' : Ticket} {loan : Loan} (h : InStep base account extra ls ls' r r')
    (hloan : ls.get? t.id = some loan) (hloan' : ls'.get? t'.id = some loan)
    (howed : loan.amount + loan.fee = t.owed) (hsame : t'.owed = t.owed) :
    base.Follows Short Run.venue (own.settle t) (own.settle t')
      (fun _ s _ s' => base.Abreast account extra s.venue s'.venue ∧ s'.steps = s.steps) r r' := by
  dsimp only [settle, own]
  rw [hsame]
  refine Follows.bind (fun _ => spend_matches h t.owed) fun _ s _ s' hspent => ?_
  refine follows_get_bind ?_
  rw [hspent.cash]
  split
  · exact fun _ => matches_refuse
  have hrepay : Matches Pool.Short (Pool.repay t.id t.owed) (Pool.repay t'.id t.owed)
      (fun _ p _ q => True ∧
        (Op.Exact (.repay t'.id t.owed) _ → Richer account extra p q)) _ _ :=
    (repay_matches hspent.venue.pool (hspent.loans ▸ hloan) (hspent.loans' ▸ hloan')
      (howed ▸ BitVec.le_refl _)).mono fun _ _ _ _ hp => ⟨trivial, hp⟩
  refine (onVenue_follows (perform_follows hspent.venue .repay (repay_does t'.id t.owed _) hrepay)).bind ?_
  rintro _ _ _ _ ⟨w, w', ⟨-, hvenue⟩, rfl, rfl⟩
  exact fun _ => matches_modify ⟨hvenue, congrArg (_ :: ·) hspent.steps⟩

theorem fund_follows (s : Schedule) (h : InStep base account extra ls ls' r r') :
    base.Follows Short Run.venue (own.fund account asset s) (own.fund account asset s)
      (fun t u t' u' => (t'.amount = t.amount ∧ t'.fee = t.fee) ∧
        InStep base account extra (ls.set t.id ⟨asset, t.amount, t.fee, account⟩)
          (ls'.set t'.id ⟨asset, t.amount, t.fee, account⟩) u u') r r' := by
  have hquoted : r'.venue.flashFee s.totalBorrow = r.venue.flashFee s.totalBorrow := h.venue.flashFee _
  unfold fund
  refine follows_get_bind ?_
  dsimp only [own]
  rw [hquoted]
  have hpaid : InStep base account extra ls ls'
      { r with cash := s.principal + r.venue.flashFee s.totalBorrow }
      { r' with cash := s.principal + r.venue.flashFee s.totalBorrow } :=
    ⟨h.venue, h.loans, h.loans', rfl, h.stage, h.steps⟩
  refine Follows.bind (R := fun _ u _ u' => InStep base account extra ls ls' u u')
    (fun _ => matches_modify hpaid) fun _ u _ u' h₁ => ?_
  have hacquire : Matches Pool.Short (Pool.acquire asset s.totalBorrow account)
      (Pool.acquire asset s.totalBorrow account)
      (fun t p t' q => ((t'.amount = t.amount ∧ t'.fee = t.fee) ∧
          p.loans = ls.set t.id ⟨asset, t.amount, t.fee, account⟩ ∧
          q.loans = ls'.set t'.id ⟨asset, t.amount, t.fee, account⟩) ∧
        (Op.Exact (.acquire asset s.totalBorrow account) u'.venue.pool → Richer account extra p q))
      u.venue.pool u'.venue.pool := by
    refine (acquire_matches h₁.venue.pool asset s.totalBorrow).mono ?_
    rintro _ p _ q ⟨rfl, rfl, hp, hq, hricher⟩
    have hcharged := h₁.venue.pool.flashFee s.totalBorrow
    rw [h₁.loans] at hp
    rw [h₁.loans', nextTicket, hcharged] at hq
    exact ⟨⟨⟨rfl, hcharged⟩, hp, hq⟩, fun _ => hricher⟩
  refine (onVenue_follows (perform_follows h₁.venue .acquire
    (acquire_does asset s.totalBorrow account _) hacquire)).bind ?_
  rintro t _ t' _ ⟨w, w', ⟨⟨⟨hamount, hfee⟩, hp, hq⟩, hvenue⟩, rfl, rfl⟩
  have h₂ := h₁.called hvenue hp hq
  intro _
  rw [hamount, hfee]
  refine (receive_matches h₂ t.amount).bind fun _ _ _ _ h₃ => ?_
  refine (advance_matches h₃ .flashAcquired).bind fun _ _ _ _ h₄ => ?_
  exact (note_matches h₄ _).bind fun _ _ _ _ h₅ => matches_pure ⟨⟨hamount, hfee⟩, h₅⟩

variable (x asset) in
theorem execute_follows (s : Schedule) (h : InStep base account extra ls ls' r r') :
    base.Follows Short Run.venue (own.execute x account asset s) (own.execute x account asset s)
      (fun health t health' t' => health' = health ∧ base.Abreast account extra t.venue t'.venue ∧
        t'.steps = t.steps) r r' := by
  unfold execute
  refine (fund_follows s h).bind fun t _ t' _ hfunded => ?_
  obtain ⟨⟨hamount, hfee⟩, h₁⟩ := hfunded
  refine (rounds_follows 0 s.principal s.borrows h₁).bind ?_
  rintro last _ _ _ ⟨rfl, h₂⟩
  refine Follows.bind (fun _ => advance_matches h₂ .repaying) fun _ _ _ _ h₃ => ?_
  refine (supplyTranche_follows h₃ s.loopCount _).bind fun _ _ _ _ h₄ => ?_
  refine Follows.bind (fun _ => judge_matches h₄ (s.totalBorrow != 0)) ?_
  rintro health _ _ _ ⟨rfl, h₅⟩
  have hsame : t'.owed = t.owed := by rw [Ticket.owed, Ticket.owed, hamount, hfee]
  refine (settle_follows h₅ (Table.get?_set_self ..) (Table.get?_set_self ..) rfl hsame).bind ?_
  exact fun _ _ _ _ hsettled => fun _ => matches_pure ⟨rfl, hsettled⟩

end Executor
end Gearing
