import Gearing.Proofs.Executor.Judged
import Gearing.Proofs.Executor.Phases

/-!
A run that nothing stops. On a venue without faults every call goes through that its pool allows, so a
script that can be carried out is carried out, as long as the cash suffices and the guard agrees.
-/
namespace Gearing
open Gearing.Action Pool Flash

namespace Venue

/-- The venue stands at this pool, none of its calls is scripted to fail, and it quotes the fee that the
pool charges. -/
structure Ready (v : Venue) (p : Pool) : Prop where
  pool : v.pool = p
  faults : v.faults = []
  quoted : v.feeBps = p.feeBps

section
variable {α : Type} {v : Venue} {p q : Pool} {act : PoolM α}

theorem call_goes {P : α → Venue → Prop} (c : Call) (hfaults : v.faults = [])
    (h : act.Ends (fun a q => P a { v with calls := c :: v.calls, pool := q }) (fun _ _ => False)
      v.pool) : (call c act).Ends P (fun _ _ => False) v := by
  refine call_ends c (fun _ => h) (fun hfault _ => hfault ?_)
  intro f hf
  rw [hfaults] at hf
  cases hf

theorem query_goes (c : Call) {R : α → Prop} (hv : v.Ready p)
    (h : act.Ends (fun a q => q = p ∧ R a) (fun _ _ => False) p) :
    (call c act).Ends (fun a w => w.Ready p ∧ R a) (fun _ _ => False) v := by
  obtain ⟨rfl, hfaults, hquoted⟩ := hv
  refine call_goes c hfaults (h.mono (fun a q hq => ?_) (fun _ _ h => h))
  obtain ⟨rfl, hr⟩ := hq
  exact ⟨⟨rfl, hfaults, hquoted⟩, hr⟩

theorem perform_goes (c : Call) {op : Op} {answer : α → Answer} {b : Answer}
    (happly : Pool.apply op = do let a ← act; return answer a) (hv : v.Ready p)
    (h : p.Effect op b q) :
    (perform c op act).Ends (fun a w => answer a = b ∧ w.Ready q) (fun _ _ => False) v := by
  obtain ⟨rfl, hfaults, hquoted⟩ := hv
  have hfee := h.feeBps_eq
  obtain ⟨a, ha, hrun⟩ := perform_of_clear (clear_of_faults hfaults c) happly h
  rw [Ends, hrun]
  refine ⟨ha, rfl, hfaults, ?_⟩
  rw [hfee, ← hquoted]
  show v.quotedFeeBps.getD q.feeBps = v.quotedFeeBps.getD v.pool.feeBps
  rw [hfee]

theorem snapshot_goes (account : Address) (hv : v.Ready p) :
    (snapshot account).Ends (fun s w => w.Ready p ∧ s = p.snapshot account) (fun _ _ => False) v :=
  query_goes .accountSnapshot hv ⟨rfl, rfl⟩

theorem reserve_goes {asset : Address} {r : Reserve} (hv : v.Ready p) (hr : p.reserve? asset = some r) :
    (reserve asset).Ends (fun c w => w.Ready p ∧ c = r) (fun _ _ => False) v := by
  refine query_goes .reserve hv (Pool.reserve_ends asset (fun c hc => ⟨rfl, ?_⟩) (fun _ hnone => ?_))
  · rw [hr] at hc
    exact (Option.some.inj hc).symm
  · rw [hr] at hnone
    cases hnone

theorem borrowAllowance_goes {asset : Address} {r : Reserve} (account delegatee : Address)
    (hv : v.Ready p) (hr : p.reserve? asset = some r) :
    (borrowAllowance account delegatee asset).Ends
      (fun w u => u.Ready p ∧ w = p.allowance account delegatee asset) (fun _ _ => False) v := by
  refine query_goes .borrowAllowance hv ?_
  rw [Pool.borrowAllowance, ends_bind]
  refine Pool.reserve_ends asset (fun _ _ => ⟨rfl, rfl⟩) (fun _ hnone => ?_)
  rw [hr] at hnone
  cases hnone

theorem position_goes {asset : Address} (account : Address) (hv : v.Ready p) (hlisted : asset ∈ p.assets) :
    (position account asset).Ends (fun _ w => w.Ready p) (fun _ _ => False) v := by
  have hread : (Pool.position account asset).Ends (fun _ q => q = p ∧ True) (fun _ _ => False) p :=
    (Pool.position_ends hlisted).mono (fun _ _ h => ⟨h.1, trivial⟩) (fun _ _ h => h)
  exact (query_goes .position hv hread).mono (fun _ _ h => h.1) (fun _ _ h => h)

end
end Venue

namespace Stage

/-- The stage before round `i + 1`. -/
def round : Nat → Stage
  | 0 => .flashAcquired
  | i + 1 => .looping (UInt32.ofNat (i + 1))

theorem looping_leadsTo (i j : UInt32) : (looping i).leadsTo (looping j) =
    if i.toNat + 1 < 2 ^ 32 then .ok (j == i + 1) else .error .overflow := rfl

theorem round_leadsTo {i : Nat} (hi : i + 1 < 2 ^ 32) :
    (round i).leadsTo (.looping (UInt32.ofNat (i + 1))) = .ok true := by
  cases i with
  | zero => rfl
  | succ i =>
    have hsize : i + 1 < UInt32.size := by
      rw [UInt32.size]
      omega
    have hnat : (UInt32.ofNat (i + 1)).toNat = i + 1 := UInt32.toNat_ofNat_of_lt hsize
    have hnext : UInt32.ofNat (i + 1 + 1) = UInt32.ofNat (i + 1) + 1 := UInt32.ofNat_add (i + 1) 1
    rw [round, looping_leadsTo, hnat, if_pos hi, hnext, beq_self_eq_true]

theorem round_leadsTo_repaying (i : Nat) : (round i).leadsTo .repaying = .ok true := by
  cases i with
  | zero => rfl
  | succ i => rfl

end Stage

namespace Run
variable {P : Unit → Run → Prop} {E : Halt EngineError → Run → Prop} {r : Run}

theorem spend_goes {amount : Word} (hcash : amount ≤ r.cash)
    (hok : P () { r with cash := r.cash - amount }) : (spend amount).Ends P E r := by
  simp only [spend, ends_bind, ends_get, Word.sub?, if_pos hcash]
  exact hok

theorem advance_goes {next : Stage} (hstage : r.stage.leadsTo next = .ok true)
    (hok : P () (r.enter next)) : (advance next).Ends P E r := by
  simp only [advance, ends_bind, ends_get, ends_ofTrap, hstage]
  refine ⟨fun legal hlegal => ?_, fun _ h => by cases h⟩
  cases hlegal
  exact hok

end Run

namespace Executor
variable {x : Executor} {account asset : Address}

section Steps
variable {r : Run} {p q : Pool} {a : Answer}

theorem supplyTranche_goes (i : Nat) {amount : Word} (hr : r.venue.Ready p)
    (h : p.Effect (.deposit asset amount account) a q) (hcash : amount ≤ r.cash) :
    (supplyTranche account asset i amount).Ends
      (fun _ s => s.venue.Ready q ∧ s.cash = r.cash - amount ∧ s.stage = r.stage)
      (fun _ _ => False) r := by
  rw [supplyTranche, ends_bind, Run.onVenue_ends]
  refine (Venue.perform_goes .deposit rfl hr h).mono (fun _ v hv => ?_) (fun _ _ h => h)
  rw [ends_bind]
  exact Run.spend_goes hcash ⟨hv.2, rfl, rfl⟩

theorem borrowTranche_goes (i : Nat) {amount : Word} (hr : r.venue.Ready p)
    (h : p.Effect (.borrow asset amount x.operator account) a q) :
    (borrowTranche x account asset i amount).Ends
      (fun _ s => s.venue.Ready q ∧ s.cash = r.cash + amount ∧ s.stage = r.stage)
      (fun _ _ => False) r := by
  rw [borrowTranche, ends_bind, Run.onVenue_ends]
  refine (Venue.perform_goes .borrow rfl hr h).mono (fun _ v hv => ?_) (fun _ _ h => h)
  exact ⟨hv.2, rfl, rfl⟩

theorem judge_goes (borrowed : Bool) {report : HealthReport} (hr : r.venue.Ready p)
    (hcheck : x.guard.check borrowed (p.snapshot account) = .ok report) :
    (judge x account borrowed).Ends
      (fun _ s => s.venue.Ready p ∧ s.cash = r.cash ∧ s.stage = r.stage) (fun _ _ => False) r := by
  rw [judge, ends_bind, Run.onVenue_ends]
  refine (Venue.snapshot_goes account hr).mono (fun snapshot v h => ?_) (fun _ _ h => h)
  obtain ⟨hv, rfl⟩ := h
  rw [ends_bind, ends_ofExcept, hcheck]
  exact ⟨fun _ _ => ⟨hv, rfl, rfl⟩, fun _ h => by cases h⟩

theorem judge_refuses (borrowed : Bool) {e : Halt EngineError} (hr : r.venue.Ready p)
    (hcheck : x.guard.check borrowed (p.snapshot account) = .error e) :
    (judge x account borrowed).Ends (fun _ _ => False) (fun e' _ => e' = e) r := by
  rw [judge, ends_bind, Run.onVenue_ends]
  refine (Venue.snapshot_goes account hr).mono (fun snapshot v h => ?_) (fun _ _ h => h.elim)
  obtain ⟨-, rfl⟩ := h
  rw [ends_bind, ends_ofExcept, hcheck]
  exact ⟨fun _ h => (by cases h), fun _ h => (by cases h; rfl)⟩

theorem settle_goes {t : Ticket} (hr : r.venue.Ready p) (h : p.Effect (.repay t.id t.owed) a q)
    (hcash : r.cash = t.owed) :
    (own.settle t).Ends (fun _ s => s.venue.Ready q ∧ s.stage = r.stage) (fun _ _ => False) r := by
  have hzero : r.cash - t.owed = 0 := sub_eq_zero.mpr hcash
  rw [settle, ends_bind]
  refine Run.spend_goes (by rw [hcash]; exact BitVec.le_refl _) ?_
  rw [ends_bind, ends_get, if_neg (Classical.not_not.mpr hzero), ends_bind, Run.onVenue_ends]
  exact (Venue.perform_goes .repay rfl hr h).mono (fun _ _ hv => ⟨hv.2, rfl⟩) (fun _ _ h => h)

end Steps

/-- Each round spends one tranche and brings in the next, so the cash never runs out as long as there is room for
every tranche beside what the rounds do not touch. -/
theorem rounds_go (i : Nat) {each : Word} {borrows : List Word} {r : Run} {p q : Pool}
    (hr : r.venue.Ready p) (h : p.Carried (roundOps x.operator account asset each borrows) q)
    (hroom : ∀ a ∈ borrows, (r.cash - each).toNat + a.toNat < 2 ^ 256) (hcash : each ≤ r.cash)
    (hstage : r.stage = .round i) (hbound : i + borrows.length < 2 ^ 32) :
    (rounds x account asset i each borrows).Ends
      (fun last s => last = lastTranche each borrows ∧ s.venue.Ready q ∧ last ≤ s.cash ∧
        s.cash - last = r.cash - each ∧ s.stage.leadsTo .repaying = .ok true)
      (fun _ _ => False) r := by
  induction borrows generalizing i each r p with
  | nil =>
    cases h
    refine ⟨rfl, hr, hcash, rfl, ?_⟩
    rw [hstage]
    exact Stage.round_leadsTo_repaying i
  | cons next rest ih =>
    rw [List.length_cons] at hbound
    cases h with
    | cons deposit h =>
      cases h with
      | cons borrow h =>
        have hentered : (r.enter (.looping (UInt32.ofNat (i + 1)))).venue.Ready p := hr
        rw [rounds, ends_bind]
        refine Run.advance_goes ?_ ?_
        · rw [hstage]
          exact Stage.round_leadsTo (by omega)
        rw [ends_bind]
        refine (supplyTranche_goes i hentered deposit hcash).mono (fun _ r₁ h₁ => ?_) (fun _ _ h => h)
        obtain ⟨hr₁, hcash₁, hstage₁⟩ := h₁
        rw [ends_bind]
        refine (borrowTranche_goes (i + 1) hr₁ borrow).mono (fun _ r₂ h₂ => ?_) (fun _ _ h => h)
        obtain ⟨hr₂, hcash₂, hstage₂⟩ := h₂
        have hleft : r₂.cash - next = r.cash - each := by
          rw [hcash₂, hcash₁]
          exact BitVec.add_sub_cancel _ _
        have henough : next ≤ r₂.cash := by
          have hspent : r₁.cash = r.cash - each := hcash₁
          rw [BitVec.le_def, hcash₂, hspent, toNat_add_of_lt (hroom next List.mem_cons_self)]
          exact Nat.le_add_left _ _
        have hrest : ∀ a ∈ rest, (r₂.cash - next).toNat + a.toNat < 2 ^ 256 := fun a ha => by
          rw [hleft]
          exact hroom a (List.mem_cons_of_mem _ ha)
        refine (ih (i + 1) hr₂ h hrest henough (hstage₂.trans hstage₁) (by omega)).mono
          (fun last s hs => ?_) (fun _ _ h => h)
        obtain ⟨hlast, hs, hle, hsum, hrepaying⟩ := hs
        exact ⟨hlast, hs, hle, hsum.trans hleft, hrepaying⟩

theorem fund_goes {s : Schedule} {r : Run} {p q : Pool} {a : Answer} (hr : r.venue.Ready p)
    (hstage : r.stage = .idle) (h : p.Effect (.acquire asset s.totalBorrow account) a q) :
    (own.fund account asset s).Ends
      (fun t r' => t = p.nextTicket asset s.totalBorrow ∧ r'.venue.Ready q ∧
        r'.cash = s.principal + p.flashFee s.totalBorrow + s.totalBorrow ∧ r'.stage = .round 0)
      (fun _ _ => False) r := by
  have hfee : r.venue.flashFee s.totalBorrow = p.flashFee s.totalBorrow := by
    rw [Venue.flashFee, hr.quoted, flashFee]
  rw [fund, ends_bind, ends_get, ends_bind, ends_modify, ends_bind, Run.onVenue_ends]
  refine (Venue.perform_goes .acquire rfl hr h).mono (fun t v hv => ?_) (fun _ _ h => h)
  obtain ⟨rfl, hv⟩ := hv
  have ht := h.acquired
  subst ht
  rw [ends_bind, Run.receive, ends_modify, ends_bind]
  refine Run.advance_goes ?_ ⟨rfl, hv, ?_, rfl⟩
  · show r.stage.leadsTo .flashAcquired = .ok true
    rw [hstage]
    rfl
  · rw [← hfee]
    rfl

section Execution
variable {s : Schedule} {r : Run} {p p₁ p₂ p₃ : Pool} {a b : Answer}

/-- A run that can be carried out goes on to its guard, with the cash in hand that it owes by then. -/
theorem execute_until_judged {P : HealthReport → Run → Prop} {E : Halt EngineError → Run → Prop}
    (hr : r.venue.Ready p) (hstage : r.stage = .idle)
    (hacquire : p.Effect (.acquire asset s.totalBorrow account) a p₁)
    (htranches : p₁.Carried (roundOps x.operator account asset s.principal s.borrows ++
      [.deposit asset (lastTranche s.principal s.borrows) account]) p₂)
    (hbound : s.loopCount < 2 ^ 32)
    (hcash : s.principal.toNat + (p.flashFee s.totalBorrow).toNat + s.totalBorrow.toNat < 2 ^ 256)
    (hroom : ∀ a ∈ s.borrows,
      (p.flashFee s.totalBorrow).toNat + s.totalBorrow.toNat + a.toNat < 2 ^ 256)
    (hjudged : ∀ r' : Run, r'.venue.Ready p₂ → r'.cash = (p.nextTicket asset s.totalBorrow).owed →
      r'.stage = .repaying → Ends (do
        let health ← judge x account (s.totalBorrow != 0)
        own.settle (p.nextTicket asset s.totalBorrow)
        return health) P E r') :
    (own.execute x account asset s).Ends P E r := by
  obtain ⟨p', hrounds, hlast⟩ := htranches.split
  rcases hlast with _ | ⟨hlast, htail⟩
  cases htail
  rw [execute, ends_bind]
  refine (fund_goes hr hstage hacquire).mono (fun t r₁ h₁ => ?_) (fun _ _ h => h.elim)
  obtain ⟨rfl, hr₁, hcash₁, hstage₁⟩ := h₁
  have hfee : (s.principal + p.flashFee s.totalBorrow).toNat =
      s.principal.toNat + (p.flashFee s.totalBorrow).toNat := toNat_add_of_lt (by omega)
  have hfunded : r₁.cash.toNat =
      s.principal.toNat + (p.flashFee s.totalBorrow).toNat + s.totalBorrow.toNat := by
    rw [hcash₁, toNat_add_of_lt (by omega), hfee]
  have hbrought : s.principal ≤ r₁.cash := by
    rw [BitVec.le_def, hfunded]
    omega
  have hroom₁ : ∀ a ∈ s.borrows, (r₁.cash - s.principal).toNat + a.toNat < 2 ^ 256 := by
    intro a ha
    have hborrow := hroom a ha
    rw [BitVec.toNat_sub_of_le hbrought, hfunded]
    omega
  rw [ends_bind]
  refine (rounds_go 0 hr₁ hrounds hroom₁ hbrought hstage₁ (by rw [Nat.zero_add]; exact hbound)).mono
    (fun last r₂ h₂ => ?_) (fun _ _ h => h.elim)
  obtain ⟨rfl, hr₂, hle, hcash₂, hrepaying⟩ := h₂
  rw [ends_bind]
  refine Run.advance_goes hrepaying ?_
  have hentered : (r₂.enter .repaying).venue.Ready p' := hr₂
  rw [ends_bind]
  refine (supplyTranche_goes s.loopCount hentered hlast hle).mono (fun _ r₃ h₃ => ?_)
    (fun _ _ h => h.elim)
  obtain ⟨hr₃, hcash₃, hstage₃⟩ := h₃
  refine hjudged r₃ hr₃ ?_ hstage₃
  -- The tranches have taken the principal out of the cash and nothing else.
  have hspent : r₃.cash = r₂.cash - lastTranche s.principal s.borrows := hcash₃
  rw [hspent, hcash₂, hcash₁, Ticket.owed, nextTicket]
  abel

theorem execute_goes (hr : r.venue.Ready p) (hstage : r.stage = .idle)
    (hacquire : p.Effect (.acquire asset s.totalBorrow account) a p₁)
    (htranches : p₁.Carried (roundOps x.operator account asset s.principal s.borrows ++
      [.deposit asset (lastTranche s.principal s.borrows) account]) p₂)
    (hrepay : p₂.Effect (.repay (p.lastTicket + 1) (p.nextTicket asset s.totalBorrow).owed) b p₃)
    (hbound : s.loopCount < 2 ^ 32)
    (hcash : s.principal.toNat + (p.flashFee s.totalBorrow).toNat + s.totalBorrow.toNat < 2 ^ 256)
    (hroom : ∀ a ∈ s.borrows,
      (p.flashFee s.totalBorrow).toNat + s.totalBorrow.toNat + a.toNat < 2 ^ 256)
    (hcheck : ∃ report, x.guard.check (s.totalBorrow != 0) (p₂.snapshot account) = .ok report) :
    (own.execute x account asset s).Ends (fun _ r' => r'.venue.Ready p₃ ∧ r'.stage = .repaying)
      (fun _ _ => False) r := by
  obtain ⟨report, hcheck⟩ := hcheck
  refine execute_until_judged hr hstage hacquire htranches hbound hcash hroom fun r₃ hr₃ hcash₃ hstage₃ => ?_
  rw [ends_bind]
  refine (judge_goes (s.totalBorrow != 0) hr₃ hcheck).mono (fun _ r₄ h₄ => ?_) (fun _ _ h => h)
  obtain ⟨hr₄, hcash₄, hstage₄⟩ := h₄
  rw [ends_bind]
  refine (settle_goes hr₄ hrepay (hcash₄.trans hcash₃)).mono (fun _ r₅ h₅ => ?_) (fun _ _ h => h)
  exact ⟨h₅.1, h₅.2.trans (hstage₄.trans hstage₃)⟩

theorem execute_refused {e : Halt EngineError} (hr : r.venue.Ready p) (hstage : r.stage = .idle)
    (hacquire : p.Effect (.acquire asset s.totalBorrow account) a p₁)
    (htranches : p₁.Carried (roundOps x.operator account asset s.principal s.borrows ++
      [.deposit asset (lastTranche s.principal s.borrows) account]) p₂)
    (hbound : s.loopCount < 2 ^ 32)
    (hcash : s.principal.toNat + (p.flashFee s.totalBorrow).toNat + s.totalBorrow.toNat < 2 ^ 256)
    (hroom : ∀ a ∈ s.borrows,
      (p.flashFee s.totalBorrow).toNat + s.totalBorrow.toNat + a.toNat < 2 ^ 256)
    (hcheck : x.guard.check (s.totalBorrow != 0) (p₂.snapshot account) = .error e) :
    (own.execute x account asset s).Ends (fun _ _ => False) (fun e' _ => e' = e) r := by
  refine execute_until_judged hr hstage hacquire htranches hbound hcash hroom fun r₃ hr₃ _ _ => ?_
  rw [ends_bind]
  exact (judge_refuses (s.totalBorrow != 0) hr₃ hcheck).mono (fun _ _ h => h.elim) (fun _ _ h => h)

end Execution

section Venues
variable {s : Schedule} {v : Venue} {p q : Pool} {a : Answer}

theorem conclude_goes {id : Nat} {run : Run} (health : HealthReport) (hv : v.Ready p)
    (hstage : run.stage = .repaying) (h : p.Effect (.commit id) a q) :
    (conclude id run health).Ends (fun ending w => ending.outcome = .ok health ∧ w.Ready q)
      (fun _ _ => False) v := by
  rw [conclude, ends_bind, ends_attempt, onVenue_ends]
  refine (Venue.perform_goes .commit rfl hv h).mono (fun _ w hw => ?_) (fun _ _ h => h.elim)
  simp only [ends_bind, ends_ofTrap, hstage]
  refine ⟨fun legal hlegal => ?_, fun _ h => by cases h⟩
  cases hlegal
  exact ⟨rfl, hw.2⟩

theorem checkPreconditions_goes (hv : v.Ready p) (hadmits : x.Admits account asset s p) :
    (checkPreconditions x account asset s).Ends (fun _ w => w.Ready p) (fun _ _ => False) v := by
  obtain ⟨r, hr, hactive, henabled⟩ := hadmits.borrowable
  have hborrowable : r.isBorrowable = true := by simp [Reserve.isBorrowable, hactive, henabled]
  rw [checkPreconditions, ends_bind, onVenue_ends]
  refine (Venue.reserve_goes hv hr).mono (fun c w h => ?_) (fun _ _ h => h.elim)
  obtain ⟨hw, rfl⟩ := h
  rw [hborrowable, Bool.not_true, if_neg Bool.false_ne_true, if_neg hadmits.principal,
    if_neg (Nat.not_lt_of_le hadmits.loops), checkDelegation]
  split
  · exact hw
  · rename_i hne
    rw [ends_bind, onVenue_ends]
    refine (Venue.borrowAllowance_goes account x.operator hw hr).mono (fun available u h => ?_)
      (fun _ _ h => h.elim)
    obtain ⟨hu, rfl⟩ := h
    rw [if_neg (BitVec.not_lt.mpr (hadmits.delegated hne))]
    exact hu

theorem opening_goes (hv : v.Ready p) (hadmits : x.Admits account asset s p) (hclosed : p.opened.get? account = none) :
    (opening x account asset s).Ends (fun id u => id = p.lastCheckpoint + 1 ∧ u.Ready (p.openJournal account))
      (fun _ _ => False) v := by
  rw [opening, ends_bind]
  refine (checkPreconditions_goes hv hadmits).mono (fun _ v₁ hv₁ => ?_) (fun _ _ h => h)
  rw [onVenue_ends]
  refine (Venue.perform_goes .checkpoint rfl hv₁ (.checkpoint hclosed)).mono (fun id u h => ?_) (fun _ _ h => h.elim)
  obtain ⟨hid, hu⟩ := h
  cases hid
  exact ⟨rfl, hu⟩

theorem report_goes (plan : Option Plan) (health : HealthReport) (run : Run) (hv : v.Ready p)
    (hlisted : asset ∈ p.assets) :
    (own.report account asset s plan ⟨.ok health, run⟩).Ends (fun _ w => w.Ready p) (fun _ _ => False) v := by
  simp only [report, ends_bind, onVenue_ends]
  exact (Venue.position_goes account hv hlisted).mono (fun _ _ h => h) (fun _ _ h => h.elim)

/-- Nothing but its guard stops a run from this pool: it is let in, its script can be carried out, and its cash never
wraps. -/
structure Unhindered (x : Executor) (account asset : Address) (s : Schedule) (p q : Pool) : Prop where
  admits : x.Admits account asset s p
  rounds : s.loopCount < 2 ^ 32
  carried : p.Carried (wholeScript x account asset s p) q
  cash : s.principal.toNat + (p.flashFee s.totalBorrow).toNat + s.totalBorrow.toNat < 2 ^ 256
  room : ∀ a ∈ s.borrows, (p.flashFee s.totalBorrow).toNat + s.totalBorrow.toNat + a.toNat < 2 ^ 256

theorem Unhindered.judged (h : Unhindered x account asset s p q) :
    ∃ q', p.Carried (judgedOps x account asset s) q' := by
  obtain ⟨a, p₁, p₂, -, -, -, hacquire, htranches, -⟩ := carried_wholeScript h.carried
  exact ⟨p₂, .cons (.checkpoint h.carried.opened.1) (.cons hacquire htranches)⟩

theorem underCheckpoint_goes (hv : v.Ready (p.openJournal account)) (h : Unhindered x account asset s p q)
    (hcheck : ∀ p₂, p.Carried (judgedOps x account asset s) p₂ →
      ∃ report, x.guard.check (s.totalBorrow != 0) (p₂.snapshot account) = .ok report) :
    (underCheckpoint (p.lastCheckpoint + 1) (own.execute x account asset s)).Ends
      (fun ending w => (∃ health, ending.outcome = .ok health) ∧ w.Ready q) (fun _ _ => False) v := by
  obtain ⟨-, hbound, hcarried, hcash, hroom⟩ := h
  obtain ⟨a, p₁, p₂, b, p₃, c, hacquire, htranches, hrepay, -, hcommit⟩ := carried_wholeScript hcarried
  have hjudged := hcheck p₂ (.cons (.checkpoint hcarried.opened.1) (.cons hacquire htranches))
  have hrun : ({ venue := v } : Run).venue.Ready (p.openJournal account) := hv
  rw [underCheckpoint, ends_bind]
  refine (carryOut_of_ends (execute_goes hrun rfl hacquire htranches hrepay
    hbound hcash hroom hjudged)).mono (fun ending w h => ?_) (fun _ _ h => ?_)
  case refine_2 =>
    obtain ⟨_, _, _, _, h⟩ := h
    exact h
  obtain ⟨rfl, hok, herr⟩ := h
  obtain ⟨outcome, run⟩ := ending
  cases outcome with
  | error cause => exact (herr cause rfl).elim
  | ok health =>
    obtain ⟨hv', hstage⟩ := hok health rfl
    exact (conclude_goes health hv' hstage hcommit).mono (fun _ _ h => ⟨⟨health, h.1⟩, h.2⟩) (fun _ _ h => h)

theorem runSchedule_goes (plan : Option Plan) (hv : v.Ready p) (h : Unhindered x account asset s p q)
    (hcheck : ∀ p₂, p.Carried (judgedOps x account asset s) p₂ →
      ∃ report, x.guard.check (s.totalBorrow != 0) (p₂.snapshot account) = .ok report) :
    (runSchedule x account asset s plan).Ends (fun _ w => w.Ready q) (fun _ _ => False) v := by
  have hlisted : asset ∈ q.assets := by
    obtain ⟨r, hr, -⟩ := h.admits.borrowable
    rw [h.carried.assets_eq (list_not_mem_wholeScript x account asset s p)]
    exact mem_assets_of_reserve? hr
  rw [runSchedule_eq, ends_bind]
  refine (opening_goes hv h.admits h.carried.opened.1).mono (fun id u h₁ => ?_) (fun _ _ h => h)
  obtain ⟨rfl, hu⟩ := h₁
  rw [ends_bind]
  refine (underCheckpoint_goes hu h hcheck).mono (fun ending w h₂ => ?_) (fun _ _ h => h)
  obtain ⟨⟨health, houtcome⟩, hw⟩ := h₂
  obtain ⟨outcome, run⟩ := ending
  cases houtcome
  exact report_goes plan health run hw hlisted

theorem runSchedule_refused {q' : Pool} {e : Halt EngineError} (plan : Option Plan) (hv : v.Ready p) (hp : p.Sound)
    (h : Unhindered x account asset s p q) (hjudged : p.Carried (judgedOps x account asset s) q')
    (hcheck : x.guard.check (s.totalBorrow != 0) (q'.snapshot account) = .error e) :
    (runSchedule x account asset s plan).Ends (fun _ _ => False) (fun e' _ => e' = e) v := by
  obtain ⟨hclosed, hscript⟩ := hjudged.opened
  rcases hscript with _ | ⟨hacquire, htranches⟩
  rw [runSchedule_eq, ends_bind]
  refine (opening_goes hv h.admits hclosed).mono (fun id u h₁ => ?_) (fun _ _ h => h.elim)
  obtain ⟨rfl, hu⟩ := h₁
  have hexecute := execute_refused (r := { venue := u }) hu rfl hacquire htranches h.rounds h.cash h.room hcheck
  cases hrun : own.execute x account asset s { venue := u } with
  | ok health run => exact (hexecute.of_ok hrun).elim
  | error e' run =>
    obtain rfl : e' = e := hexecute.of_error hrun
    have hsound : u.pool.Sound := by
      rw [hu.pool]
      exact hp.openJournal hclosed
    have hkept : (u.pool.journals.get? (p.lastCheckpoint + 1)).isSome := by
      rw [hu.pool]
      exact (Effect.checkpoint hclosed).isSome_opened
    obtain ⟨w, hw, -⟩ := closing_of_error plan hu.faults hsound hkept hrun
    rw [Ends, hw]

end Venues

end Executor
end Gearing
