import Gearing.Proofs.Executor.Path
import Gearing.Proofs.Pool.Rollback
import Mathlib.Data.BitVec
import Mathlib.Tactic.Abel

/-!
The course of a run: what it carries out when nothing stops it, and what it may have carried out when
something does.

A run that is not stopped settles to the last unit. So its cash tells the fee that was quoted from the
fee that was charged, and the two are the same.
-/
namespace Gearing
open Gearing.Action Pool Flash

namespace Run

section
variable {P : Unit → Run → Prop} {E : Halt EngineError → Run → Prop} {r : Run}

theorem onVenue_ends {α : Type} {P : α → Run → Prop} {act : VenueM α} :
    (onVenue act).Ends P E r ↔
      act.Ends (fun a v => P a { r with venue := v })
        (fun e v => E (e.relabel EngineError.ofPool) { r with venue := v }) r.venue := by
  rw [onVenue, ends_focus, ends_relabel]

theorem spend_ends (amount : Word) (hok : amount ≤ r.cash → P () { r with cash := r.cash - amount })
    (herr : ∀ e, E e r) : (spend amount).Ends P E r := by
  simp only [spend, ends_bind, ends_get, Word.sub?]
  split
  · rename_i cash h
    split at h
    · cases h
      exact hok ‹_›
    · cases h
  · exact herr _

theorem advance_ends (next : Stage) (hok : P () (r.enter next)) (herr : ∀ e, E e r) :
    (advance next).Ends P E r := by
  simp only [advance, ends_bind, ends_get, ends_ofTrap]
  refine ⟨fun legal _ => ?_, fun t _ => herr _⟩
  split
  · exact hok
  · exact herr _

end
end Run

namespace Executor

section Script
variable (operator account asset : Address)

/-- What the rounds carry out: each tranche is supplied and the next one borrowed. -/
def roundOps : Word → List Word → List Op
  | _, [] => []
  | each, next :: rest =>
    .deposit asset each account :: .borrow asset next operator account :: roundOps next rest

def lastTranche : Word → List Word → Word
  | each, [] => each
  | _, next :: rest => lastTranche next rest

/-- What a whole run carries out with a ticket of flash liquidity. -/
def script (s : Schedule) (t : Ticket) : List Op :=
  .acquire asset s.totalBorrow account :: (roundOps operator account asset s.principal s.borrows ++
    [.deposit asset (lastTranche s.principal s.borrows) account, .repay t.id t.owed])

theorem roundOps_own (each : Word) (borrows : List Word) (n : Nat) :
    ∀ op ∈ roundOps operator account asset each borrows, op.Own account n := by
  induction borrows generalizing each with
  | nil =>
    intro op hop
    cases hop
  | cons next rest ih =>
    intro op hop
    rcases List.mem_cons.mp hop with rfl | hop
    · rfl
    rcases List.mem_cons.mp hop with rfl | hop
    · rfl
    · exact ih next op hop

theorem judged_own (s : Schedule) (n : Nat) :
    ∀ op ∈ .acquire asset s.totalBorrow account :: (roundOps operator account asset s.principal s.borrows ++
      [.deposit asset (lastTranche s.principal s.borrows) account]), op.Own account n := by
  refine List.forall_mem_cons.mpr ⟨rfl, List.forall_mem_append.mpr ⟨?_, ?_⟩⟩
  · exact roundOps_own operator account asset s.principal s.borrows n
  · exact List.forall_mem_singleton.mpr rfl

theorem script_own (s : Schedule) {t : Ticket} {n : Nat} (ht : n < t.id) :
    ∀ op ∈ script operator account asset s t, op.Own account n := by
  intro op hop
  rcases List.mem_cons.mp hop with rfl | hop
  · rfl
  rcases List.mem_append.mp hop with hop | hop
  · exact roundOps_own operator account asset s.principal s.borrows n op hop
  rcases List.mem_cons.mp hop with rfl | hop
  · rfl
  · rw [List.mem_singleton.mp hop]
    exact ht

end Script

section Course
variable (x : Executor) (account asset : Address) (n : Nat)

theorem supplyTranche_ends (i : Nat) (amount : Word) (r : Run) :
    (supplyTranche account asset i amount).Ends
      (fun _ s => r.venue.Path [.deposit asset amount account] s.venue ∧
        s.cash = r.cash - amount ∧ s.stage = r.stage)
      (fun _ s => r.venue.Halted (Op.Own account n) s.venue) r := by
  rw [supplyTranche, ends_bind, Run.onVenue_ends]
  refine (Venue.perform_ends (by simp [Venue.Call.Late]) (deposit_does asset amount account _)).mono
    (fun _ v h => ?_) (fun _ v h => .of_still h)
  have hown : ∀ op ∈ [Op.deposit asset amount account], op.Own account n :=
    List.forall_mem_singleton.mpr rfl
  rw [ends_bind]
  exact Run.spend_ends amount (fun _ => ⟨h.1, rfl, rfl⟩) (fun _ => .of_path hown h.1)

theorem borrowTranche_ends (i : Nat) (amount : Word) (r : Run) :
    (borrowTranche x account asset i amount).Ends
      (fun _ s => r.venue.Path [.borrow asset amount x.operator account] s.venue ∧
        s.cash = r.cash + amount)
      (fun _ s => r.venue.Halted (Op.Own account n) s.venue) r := by
  rw [borrowTranche, ends_bind, Run.onVenue_ends]
  refine (Venue.perform_ends (by simp [Venue.Call.Late]) (borrow_does asset amount _ account _)).mono
    (fun _ v h => ?_) (fun _ v h => .of_still h)
  exact ⟨h.1, rfl⟩

/-- The rounds trade the first tranche for the last one, also in the cash. -/
theorem rounds_ends (i : Nat) (each : Word) (borrows : List Word) (r : Run) :
    (rounds x account asset i each borrows).Ends
      (fun last s => last = lastTranche each borrows ∧
        r.venue.Path (roundOps x.operator account asset each borrows) s.venue ∧
        s.cash - last = r.cash - each)
      (fun _ s => r.venue.Halted (Op.Own account n) s.venue) r := by
  induction borrows generalizing i each r with
  | nil => exact ⟨rfl, .refl r.venue, rfl⟩
  | cons next rest ih =>
    rw [rounds, ends_bind]
    refine Run.advance_ends _ ?_ (fun _ => .of_still (.refl r.venue))
    rw [ends_bind]
    refine (supplyTranche_ends account asset n i each _).mono (fun _ r₁ h₁ => ?_) (fun _ _ h => h)
    obtain ⟨hpath₁, hcash₁, -⟩ := h₁
    have hown₁ : ∀ op ∈ [Op.deposit asset each account], op.Own account n :=
      List.forall_mem_singleton.mpr rfl
    rw [ends_bind]
    refine (borrowTranche_ends x account asset n (i + 1) next r₁).mono (fun _ r₂ h₂ => ?_)
      (fun _ _ h => h.after hown₁ hpath₁)
    obtain ⟨hpath₂, hcash₂⟩ := h₂
    have hpath : r.venue.Path [.deposit asset each account, .borrow asset next x.operator account]
        r₂.venue := hpath₁.trans hpath₂
    have hown : ∀ op ∈ [Op.deposit asset each account, .borrow asset next x.operator account],
        op.Own account n :=
      List.forall_mem_cons.mpr ⟨rfl, List.forall_mem_singleton.mpr rfl⟩
    refine (ih (i + 1) next r₂).mono (fun last r₃ h₃ => ?_) (fun _ _ h => h.after hown hpath)
    obtain ⟨hlast, hpath₃, hcash₃⟩ := h₃
    refine ⟨hlast, hpath.trans hpath₃, ?_⟩
    have hcash : r₁.cash = r.cash - each := hcash₁
    rw [hcash₃, hcash₂, hcash]
    exact BitVec.add_sub_cancel _ _

theorem fund_ends (s : Schedule) (r : Run) :
    (own.fund account asset s).Ends
      (fun t r' => t = r.venue.pool.nextTicket asset s.totalBorrow ∧
        r.venue.Path [.acquire asset s.totalBorrow account] r'.venue ∧
        r'.cash = s.principal + r.venue.flashFee s.totalBorrow + s.totalBorrow)
      (fun _ r' => r.venue.Halted (Op.Own account n) r'.venue) r := by
  rw [fund, ends_bind, ends_get, ends_bind, ends_modify, ends_bind, Run.onVenue_ends]
  refine (Venue.perform_ends (by simp [Venue.Call.Late]) (acquire_does asset _ account _)).mono
    (fun t v h => ?_) (fun _ v h => .of_still h)
  obtain ⟨hpath, heffect⟩ := h
  have ht : t = r.venue.pool.nextTicket asset s.totalBorrow := heffect.acquired
  subst ht
  have hown : ∀ op ∈ [Op.acquire asset s.totalBorrow account], op.Own account n :=
    List.forall_mem_singleton.mpr rfl
  rw [ends_bind, Run.receive, ends_modify, ends_bind]
  refine Run.advance_ends _ ?_ (fun _ => .of_path hown hpath)
  exact ⟨rfl, hpath, rfl⟩

theorem judge_ends (borrowed : Bool) (r : Run) :
    (judge x account borrowed).Ends
      (fun health s => r.venue.Path [] s.venue ∧ s.cash = r.cash ∧ s.stage = r.stage ∧
        x.guard.check borrowed (r.venue.pool.snapshot account) = .ok health)
      (fun _ s => r.venue.Halted (Op.Own account n) s.venue) r := by
  rw [judge, ends_bind, Run.onVenue_ends]
  refine (Venue.snapshot_ends r.venue account).mono (fun snapshot v h => ?_) (fun _ v h => .of_still h)
  obtain ⟨hpath, -, rfl⟩ := h
  rw [ends_bind, ends_ofExcept]
  exact ⟨fun health hcheck => ⟨hpath, rfl, rfl, hcheck⟩,
    fun e _ => .of_path (List.forall_mem_nil _) hpath⟩

/-- Nothing is left after the repayment, so the cash was what was owed. -/
theorem settle_ends (t : Ticket) (r : Run) :
    (own.settle t).Ends
      (fun _ s => r.venue.Path [.repay t.id t.owed] s.venue ∧ r.cash = t.owed ∧ s.stage = r.stage)
      (fun _ s => r.venue.Halted (Op.Own account n) s.venue) r := by
  rw [settle, ends_bind]
  refine Run.spend_ends _ (fun hle => ?_) (fun _ => .of_still (.refl r.venue))
  rw [ends_bind, ends_get]
  split
  · exact .of_still (.refl r.venue)
  · rename_i hzero
    rw [ends_bind, Run.onVenue_ends]
    refine (Venue.perform_ends (by simp [Venue.Call.Late]) (repay_does t.id t.owed _)).mono
      (fun _ v h => ?_) (fun _ v h => .of_still h)
    refine ⟨h.1, ?_, rfl⟩
    have hcash : r.cash - t.owed = 0 := Classical.not_not.mp hzero
    exact sub_eq_zero.mp hcash

/-- The tranches of a run, each in its round and the last one after them, and the verdict of the guard on them. -/
def build (s : Schedule) : RunM HealthReport := do
  let last ← rounds x account asset 0 s.principal s.borrows
  Run.advance .repaying
  supplyTranche account asset s.loopCount last
  judge x account (s.totalBorrow != 0)

theorem build_ends (s : Schedule) (r : Run) :
    (build x account asset s).Ends
      (fun health r' => r.venue.Path (roundOps x.operator account asset s.principal s.borrows ++
          [.deposit asset (lastTranche s.principal s.borrows) account]) r'.venue ∧
        r'.cash = r.cash - s.principal ∧ r'.stage = .repaying ∧
        x.guard.check (s.totalBorrow != 0) (r'.venue.pool.snapshot account) = .ok health)
      (fun _ r' => r.venue.Halted (Op.Own account n) r'.venue) r := by
  have hrounds := roundOps_own x.operator account asset s.principal s.borrows n
  rw [build, ends_bind]
  refine (rounds_ends x account asset n 0 s.principal s.borrows r).mono (fun last r₁ h₁ => ?_)
    (fun _ _ h => h)
  obtain ⟨rfl, hpath₁, hcash₁⟩ := h₁
  rw [ends_bind]
  refine Run.advance_ends _ ?_ (fun _ => .of_path hrounds hpath₁)
  rw [ends_bind]
  refine (supplyTranche_ends account asset n s.loopCount _ _).mono (fun _ r₂ h₂ => ?_)
    (fun _ _ h => h.after hrounds hpath₁)
  obtain ⟨hpath₂, hcash₂, hstage₂⟩ := h₂
  have hpath₂ := hpath₁.trans hpath₂
  have hown : ∀ op ∈ roundOps x.operator account asset s.principal s.borrows ++
      [.deposit asset (lastTranche s.principal s.borrows) account], op.Own account n :=
    List.forall_mem_append.mpr ⟨hrounds, List.forall_mem_singleton.mpr rfl⟩
  refine (judge_ends x account n _ r₂).mono (fun health r₃ h₃ => ?_) (fun _ _ h => h.after hown hpath₂)
  obtain ⟨hpath₃, hcash₃, hstage₃, hcheck⟩ := h₃
  have hpool : r₃.venue.pool = r₂.venue.pool := hpath₃.pool.history_eq.symm
  refine ⟨by simpa using hpath₂.trans hpath₃, ?_, hstage₃.trans hstage₂, hpool ▸ hcheck⟩
  rw [hcash₃, hcash₂]
  exact hcash₁

end Course
end Executor

namespace Flash
open Executor
variable (flash : Flash) (x : Executor) (account asset : Address)

/-- A run up to the verdict of its guard, with the ticket of its flash liquidity. -/
def approach (s : Schedule) : RunM (Ticket × HealthReport) := do
  let ticket ← flash.fund account asset s
  let health ← build x account asset s
  return (ticket, health)

theorem execute_eq (s : Schedule) : flash.execute x account asset s = (do
    let (ticket, health) ← flash.approach x account asset s
    flash.settle ticket
    return health) := by
  simp only [execute, approach, build, bind_assoc, pure_bind]

end Flash

namespace Executor
section Course
variable (x : Executor) (account asset : Address) (n : Nat)

theorem approach_ends (s : Schedule) (r : Run) :
    (own.approach x account asset s).Ends
      (fun judged r' => judged.1 = r.venue.pool.nextTicket asset s.totalBorrow ∧
        r.venue.Path (.acquire asset s.totalBorrow account ::
          (roundOps x.operator account asset s.principal s.borrows ++
            [.deposit asset (lastTranche s.principal s.borrows) account])) r'.venue ∧
        r'.cash = s.totalBorrow + r.venue.flashFee s.totalBorrow ∧ r'.stage = .repaying ∧
        x.guard.check (s.totalBorrow != 0) (r'.venue.pool.snapshot account) = .ok judged.2)
      (fun _ r' => r.venue.Halted (Op.Own account n) r'.venue) r := by
  rw [approach, ends_bind]
  refine (fund_ends account asset n s r).mono (fun t r₁ h₁ => ?_) (fun _ _ h => h)
  obtain ⟨ht, hpath₁, hcash₁⟩ := h₁
  have hown₁ : ∀ op ∈ [Op.acquire asset s.totalBorrow account], op.Own account n :=
    List.forall_mem_singleton.mpr rfl
  rw [ends_bind]
  refine (build_ends x account asset n s r₁).mono (fun health r₂ h₂ => ?_) (fun _ _ h => h.after hown₁ hpath₁)
  obtain ⟨hpath₂, hcash₂, hstage₂, hcheck⟩ := h₂
  refine ⟨ht, hpath₁.trans hpath₂, ?_, hstage₂, hcheck⟩
  rw [hcash₂, hcash₁]
  abel

theorem execute_ends (s : Schedule) (r : Run) :
    (own.execute x account asset s).Ends
      (fun _ r' => r.venue.Path
          (script x.operator account asset s (r.venue.pool.nextTicket asset s.totalBorrow)) r'.venue ∧
        r.venue.flashFee s.totalBorrow = r.venue.pool.flashFee s.totalBorrow ∧
        r'.stage = .repaying)
      (fun _ r' => r.venue.Halted (Op.Own account n) r'.venue) r := by
  rw [execute_eq, ends_bind]
  refine (approach_ends x account asset n s r).mono (fun judged r₁ h => ?_) (fun _ _ h => h)
  obtain ⟨ticket, health⟩ := judged
  obtain ⟨rfl, hpath, hcash, hstage, -⟩ := h
  have hown := judged_own x.operator account asset s n
  show Ends (own.settle _ >>= _) _ _ r₁
  rw [ends_bind]
  refine (settle_ends account n _ r₁).mono (fun _ r₂ h => ?_) (fun _ _ h => h.after hown hpath)
  obtain ⟨hrepaid, howed, hstage'⟩ := h
  refine ⟨by simpa [script] using hpath.trans hrepaid, ?_, hstage'.trans hstage⟩
  -- The cash before the repayment is the quoted fee beside the flash liquidity.
  exact add_left_cancel (hcash.symm.trans howed)

end Course
end Executor
end Gearing
