import Gearing.Pool.Operation
import Gearing.Proofs.Ends

/-!
What each operation of a pool does when it is carried out, with all that was checked on the way, and
that an operation which halts leaves the pool as it was.
-/
namespace Gearing.Pool
open Gearing.Action FixedPoint

def nextTicket (p : Pool) (asset : Address) (amount : Word) : Ticket :=
  ⟨p.lastTicket + 1, asset, amount, p.flashFee amount⟩

/-- Every loan that is out concerns a listed reserve. -/
def LoansListed (p : Pool) : Prop :=
  ∀ t loan, p.loans.get? t = some loan → (p.reserve? loan.asset).isSome

/-- One operation, carried out: its answer and the pool that it leaves. -/
inductive Effect (p : Pool) : Op → Answer → Pool → Prop
  | list (r : Reserve) : Effect p (.list r) .done (p.list r)
  | updateReserve {asset c r} (listed : p.reserve? asset = some r) :
    Effect p (.updateReserve asset c) .done (p.mapReserve asset (·.patch c))
  | supply {asset amount r} (listed : p.reserve? asset = some r) :
    Effect p (.supply asset amount) .done (p.addLiquidity asset amount)
  | approve (account delegatee asset : Address) (amount : Word) :
    Effect p (.approve account delegatee asset amount) .done
      (p.setAllowance account delegatee asset amount)
  | deposit {asset amount account r} (listed : p.reserve? asset = some r) (active : r.active)
      (index : r.liquidityIndex ≠ 0) :
    Effect p (.deposit asset amount account) .done
      (p.credit asset amount (share amount r.liquidityIndex) account)
  | borrow {asset amount account r} (listed : p.reserve? asset = some r) (active : r.active)
      (enabled : r.borrowingEnabled) (liquid : amount ≤ r.liquidity) (index : r.borrowIndex ≠ 0) :
    Effect p (.borrow asset amount account account) .done
      (p.debit asset amount (share amount r.borrowIndex) account account 0)
  | borrowFor {asset amount delegatee account r} (listed : p.reserve? asset = some r)
      (active : r.active) (enabled : r.borrowingEnabled) (liquid : amount ≤ r.liquidity)
      (index : r.borrowIndex ≠ 0) (foreign : delegatee ≠ account)
      (allowed : amount ≤ p.allowance account delegatee asset) :
    Effect p (.borrow asset amount delegatee account) .done
      ((p.setAllowance account delegatee asset (p.allowance account delegatee asset - amount)).debit
        asset amount (share amount r.borrowIndex) delegatee account amount)
  | checkpoint {account} (closed : p.opened.get? account = none) :
    Effect p (.checkpoint account) (.checkpoint (p.lastCheckpoint + 1)) (p.openJournal account)
  | revert {id j} (journal : p.journals.get? id = some j) :
    Effect p (.revert id) .done ((p.close id j.account).undoAll j.entries)
  | commit {id j} (journal : p.journals.get? id = some j) :
    Effect p (.commit id) .done (p.close id j.account)
  | acquire {asset amount account r} (listed : p.reserve? asset = some r) (active : r.active)
      (liquid : amount ≤ r.liquidity) :
    Effect p (.acquire asset amount account) (.ticket (p.nextTicket asset amount))
      (p.issue (p.nextTicket asset amount) account)
  | repay {ticket paid loan r} (out : p.loans.get? ticket = some loan)
      (enough : loan.amount + loan.fee ≤ paid) (listed : p.reserve? loan.asset = some r) :
    Effect p (.repay ticket paid) .done ({ p with loans := p.loans.erase ticket }.redeem loan)
  | wrap (amount : Word) : Effect p (.wrap amount) .done { p with wrapped := p.wrapped + amount }
  | unwrap {amount} (covered : amount ≤ p.wrapped) :
    Effect p (.unwrap amount) .done { p with wrapped := p.wrapped - amount }

theorem Effect.acquired {p q : Pool} {asset account : Address} {amount : Word} {t : Ticket}
    (h : p.Effect (.acquire asset amount account) (.ticket t) q) :
    t = p.nextTicket asset amount := by
  cases h
  rfl

theorem Effect.opened {p q : Pool} {account : Address} {id : Nat}
    (h : p.Effect (.checkpoint account) (.checkpoint id) q) :
    id = p.lastCheckpoint + 1 ∧ p.opened.get? account = none ∧ q = p.openJournal account := by
  cases h with
  | checkpoint closed => exact ⟨rfl, closed, rfl⟩

theorem Effect.isSome_opened {p q : Pool} {account : Address} {n : Nat}
    (h : p.Effect (.checkpoint account) (.checkpoint n) q) : (q.journals.get? n).isSome := by
  obtain ⟨rfl, -, rfl⟩ := h.opened
  exact Option.isSome_of_mem (Table.get?_set_self ..)

section
variable {p : Pool} {P : Reserve → Pool → Prop} {E : Halt PoolError → Pool → Prop}

theorem reserve_ends (asset : Address) (hok : ∀ r, p.reserve? asset = some r → P r p)
    (herr : ∀ e, p.reserve? asset = none → E e p) : (reserve asset).Ends P E p := by
  simp only [reserve, ends_bind, ends_get]
  cases h : p.reserve? asset with
  | none => exact herr _ h
  | some r => exact hok r h

theorem activeReserve_ends (asset : Address)
    (hok : ∀ r, p.reserve? asset = some r → r.active → P r p) (herr : ∀ e, E e p) :
    (activeReserve asset).Ends P E p := by
  simp only [activeReserve, ends_bind]
  refine reserve_ends asset (fun r hr => ?_) (fun e _ => herr e)
  split
  · exact hok r hr ‹_›
  · exact herr _

theorem rayDiv_ends {P : Word → Pool → Prop} (a index : Word)
    (hok : index ≠ 0 → P (share a index) p) (herr : ∀ e, E e p) :
    (Action.ofTrap (rayDiv a index)).Ends P E p := by
  rw [ends_ofTrap, rayDiv_eq]
  split
  · exact ⟨fun _ h => (by cases h), fun _ _ => herr _⟩
  · rename_i h
    refine ⟨fun a h' => ?_, fun _ h => by cases h⟩
    cases h'
    exact hok h

end

/-- An operation that answers has the effect of `op`, and one that halts has none. Only a loan on an
unlisted reserve could be lost by a repayment that is refused. -/
abbrev Does {α : Type} (act : PoolM α) (op : Op) (answer : α → Answer) (p : Pool) : Prop :=
  act.Ends (fun a q => p.Effect op (answer a) q) (fun _ q => p.LoansListed → q = p) p

theorem updateReserve_does (asset : Address) (c : ReservePatch) (p : Pool) :
    Does (updateReserve asset c) (.updateReserve asset c) (fun _ => .done) p := by
  simp only [Does, updateReserve, ends_bind]
  exact reserve_ends asset (fun r hr => .updateReserve hr) (fun _ _ _ => rfl)

theorem supply_does (asset : Address) (amount : Word) (p : Pool) :
    Does (supply asset amount) (.supply asset amount) (fun _ => .done) p := by
  simp only [Does, supply, ends_bind]
  exact reserve_ends asset (fun r hr => .supply hr) (fun _ _ _ => rfl)

theorem deposit_does (asset : Address) (amount : Word) (account : Address) (p : Pool) :
    Does (deposit asset amount account) (.deposit asset amount account) (fun _ => .done) p := by
  simp only [Does, deposit, ends_bind]
  refine activeReserve_ends asset (fun r hr ha => ?_) (fun _ _ => rfl)
  exact rayDiv_ends amount r.liquidityIndex (fun hi => .deposit hr ha hi) (fun _ _ => rfl)

theorem borrow_does (asset : Address) (amount : Word) (delegatee account : Address) (p : Pool) :
    Does (borrow asset amount delegatee account) (.borrow asset amount delegatee account)
      (fun _ => .done) p := by
  simp only [Does, borrow, ends_bind]
  refine activeReserve_ends asset (fun r hr ha => ?_) (fun _ _ => rfl)
  split
  · exact fun _ => rfl
  split
  · exact fun _ => rfl
  rename_i henabled hliquid
  have he : r.borrowingEnabled := by simpa using henabled
  have hl : amount ≤ r.liquidity := BitVec.not_lt.mp hliquid
  rw [ends_bind]
  refine rayDiv_ends amount r.borrowIndex (fun hi => ?_) (fun _ _ => rfl)
  simp only [ends_bind, spendAllowance]
  split
  · rename_i hd
    subst hd
    exact .borrow hr ha he hl hi
  · rename_i hd
    rw [ends_bind, ends_get]
    split
    · exact fun _ => rfl
    · rename_i hshort
      exact .borrowFor hr ha he hl hi hd (BitVec.not_lt.mp hshort)

theorem checkpoint_does (account : Address) (p : Pool) :
    Does (checkpoint account) (.checkpoint account) .checkpoint p := by
  simp only [Does, checkpoint, ends_bind, ends_get]
  split
  · exact fun _ => rfl
  · rename_i h
    exact .checkpoint (by simpa [Table.contains] using h)

theorem revert_ends (id : Nat) (p : Pool) :
    (revert id).Ends (fun _ q => p.Effect (.revert id) .done q)
      (fun e q => q = p ∧ p.journals.get? id = none ∧ e = .refused (.unknownCheckpoint id)) p := by
  simp only [revert, ends_bind, ends_get]
  cases h : p.journals.get? id with
  | none => exact ⟨rfl, rfl, rfl⟩
  | some j => exact .revert h

theorem commit_ends (id : Nat) (p : Pool) :
    (commit id).Ends (fun _ q => p.Effect (.commit id) .done q)
      (fun e q => q = p ∧ p.journals.get? id = none ∧ e = .refused (.unknownCheckpoint id)) p := by
  simp only [commit, ends_bind, ends_get]
  cases h : p.journals.get? id with
  | none => exact ⟨rfl, rfl, rfl⟩
  | some j => exact .commit h

theorem revert_does (id : Nat) (p : Pool) :
    Does (revert id) (.revert id) (fun _ => .done) p :=
  (revert_ends id p).mono (fun _ _ h => h) (fun _ _ h _ => h.1)

theorem commit_does (id : Nat) (p : Pool) :
    Does (commit id) (.commit id) (fun _ => .done) p :=
  (commit_ends id p).mono (fun _ _ h => h) (fun _ _ h _ => h.1)

theorem acquire_does (asset : Address) (amount : Word) (account : Address) (p : Pool) :
    Does (acquire asset amount account) (.acquire asset amount account) .ticket p := by
  simp only [Does, acquire, ends_bind]
  refine activeReserve_ends asset (fun r hr ha => ?_) (fun _ _ => rfl)
  split
  · exact fun _ => rfl
  · rename_i h
    exact .acquire hr ha (BitVec.not_lt.mp h)

theorem repay_does (ticket : Nat) (paid : Word) (p : Pool) :
    Does (repay ticket paid) (.repay ticket paid) (fun _ => .done) p := by
  simp only [Does, repay, ends_bind, ends_get]
  cases hloan : p.loans.get? ticket with
  | none => exact fun _ => rfl
  | some loan =>
    dsimp only
    split
    · exact fun _ => rfl
    · rename_i h
      rw [ends_bind, ends_set, ends_bind]
      refine reserve_ends loan.asset (fun r hr => ?_) (fun _ hnone hlisted => ?_)
      · exact .repay hloan (BitVec.not_lt.mp h) hr
      · have := hlisted ticket loan hloan
        rw [show p.reserve? loan.asset = none from hnone] at this
        cases this

theorem wrap_does (amount : Word) (p : Pool) :
    Does (wrap amount) (.wrap amount) (fun _ => .done) p :=
  .wrap amount

theorem unwrap_does (amount : Word) (p : Pool) :
    Does (unwrap amount) (.unwrap amount) (fun _ => .done) p := by
  simp only [Does, unwrap, ends_bind, ends_get]
  split
  · exact fun _ => rfl
  · rename_i h
    exact .unwrap (BitVec.not_lt.mp h)

theorem apply_does (op : Op) (p : Pool) :
    Does (apply op) op id p := by
  cases op <;> simp only [Does, apply, ends_bind, ends_pure, ends_modify, id]
  case list r => exact .list r
  case updateReserve asset c => exact updateReserve_does asset c p
  case supply asset amount => exact supply_does asset amount p
  case approve account delegatee asset amount => exact .approve account delegatee asset amount
  case deposit asset amount account => exact deposit_does asset amount account p
  case borrow asset amount delegatee account => exact borrow_does asset amount delegatee account p
  case checkpoint account => exact checkpoint_does account p
  case revert id => exact revert_does id p
  case commit id => exact commit_does id p
  case acquire asset amount account => exact acquire_does asset amount account p
  case repay ticket paid => exact repay_does ticket paid p
  case wrap amount => exact wrap_does amount p
  case unwrap amount => exact unwrap_does amount p

theorem reserve_of_listed {p : Pool} {asset : Address} {r : Reserve} (h : p.reserve? asset = some r) :
    reserve asset p = .ok r p := by
  simp only [reserve, run_bind, run_get, h]
  rfl

theorem activeReserve_of_active {p : Pool} {asset : Address} {r : Reserve}
    (h : p.reserve? asset = some r) (ha : r.active) : activeReserve asset p = .ok r p := by
  simp only [activeReserve, run_bind, reserve_of_listed h, ha]
  rfl

theorem ofTrap_rayDiv {p : Pool} {index : Word} (a : Word) (h : index ≠ 0) :
    (Action.ofTrap (rayDiv a index) : PoolM Word) p = .ok (share a index) p := by
  rw [rayDiv_eq, if_neg h]
  rfl

/-- What was checked is all that there is to check: nothing else can stop an operation. -/
theorem apply_of_effect {p q : Pool} {op : Op} {a : Answer} (h : p.Effect op a q) :
    apply op p = .ok a q := by
  cases h with
  | list r => rfl
  | approve account delegatee asset amount => rfl
  | wrap amount => rfl
  | updateReserve listed =>
    simp only [apply, updateReserve, run_bind, reserve_of_listed listed]
    rfl
  | supply listed =>
    simp only [apply, supply, run_bind, reserve_of_listed listed]
    rfl
  | deposit listed active index =>
    simp only [apply, deposit, run_bind, activeReserve_of_active listed active,
      ofTrap_rayDiv _ index]
    rfl
  | borrow listed active enabled liquid index =>
    simp only [apply, borrow, run_bind, activeReserve_of_active listed active, enabled,
      Bool.not_true, Bool.false_eq_true, if_false, if_neg (BitVec.not_lt.mpr liquid),
      ofTrap_rayDiv _ index, spendAllowance, if_true]
    rfl
  | borrowFor listed active enabled liquid index foreign allowed =>
    simp only [apply, borrow, run_bind, activeReserve_of_active listed active, enabled,
      Bool.not_true, Bool.false_eq_true, if_false, if_neg (BitVec.not_lt.mpr liquid),
      ofTrap_rayDiv _ index, spendAllowance, if_neg foreign, run_get, if_neg (BitVec.not_lt.mpr allowed)]
    rfl
  | @checkpoint account closed =>
    have hclosed : ¬ p.opened.contains account := by
      rw [Table.contains, closed]
      exact Bool.false_ne_true
    simp only [apply, checkpoint, run_bind, run_get, if_neg hclosed]
    rfl
  | revert journal =>
    simp only [apply, revert, run_bind, run_get, journal]
    rfl
  | commit journal =>
    simp only [apply, commit, run_bind, run_get, journal]
    rfl
  | acquire listed active liquid =>
    simp only [apply, acquire, run_bind, activeReserve_of_active listed active,
      if_neg (BitVec.not_lt.mpr liquid)]
    rfl
  | repay out enough listed =>
    simp only [apply, repay, run_bind, run_get, out,
      if_neg (BitVec.not_lt.mpr enough), run_set]
    rw [reserve_of_listed (by exact listed)]
    rfl
  | unwrap covered =>
    simp only [apply, unwrap, run_bind, run_get,
      if_neg (BitVec.not_lt.mpr covered)]
    rfl

theorem after_of_effect {p q : Pool} {op : Op} {a : Answer} (h : p.Effect op a q) :
    p.after op = q := by
  rw [after, apply_of_effect h]

theorem after_cases {p : Pool} (op : Op) (hlisted : p.LoansListed) :
    (∃ a, p.Effect op a (p.after op)) ∨ p.after op = p := by
  have h := apply_does op p
  unfold after
  cases happly : apply op p with
  | ok a q => exact .inl ⟨a, h.of_ok happly⟩
  | error e q => exact .inr (h.of_error happly hlisted)

end Gearing.Pool
