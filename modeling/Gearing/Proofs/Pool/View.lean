import Gearing.Proofs.Alike
import Gearing.Proofs.Pool.Rollback
import Gearing.Proofs.Table

/-!
Pools that show the same are the same to whoever uses them: an operation answers alike on both and
leaves pools that show the same again.

How a table is written does not matter here, only how it reads. An allowance of zero may stand in it
or be absent, and a loan may have been taken out and put back behind the others.
-/
namespace Gearing.Pool
open Gearing.Action

/-- The same in everything that can be asked, and in the numbers that come next. -/
structure SameView (p q : Pool) : Prop extends SameState p q where
  lastTicket : p.lastTicket = q.lastTicket
  lastCheckpoint : p.lastCheckpoint = q.lastCheckpoint

namespace SameView
variable {p q : Pool}

theorem refl (p : Pool) : p.SameView p := ⟨⟨.refl p, fun _ => rfl⟩, rfl, rfl⟩

theorem allowance_written (p : Pool) (account delegatee asset : Address) :
    (p.setAllowance account delegatee asset (p.allowance account delegatee asset)).SameView p := by
  refine { refl p with allowance := fun a d c => ?_ }
  rw [allowance, setAllowance, Table.getD_set]
  split
  · rename_i hk
    cases hk
    rfl
  · rfl

theorem loan_returned {ticket : Nat} {loan : Loan} (hloan : p.loans.get? ticket = some loan) :
    SameView { p with loans := (p.loans.erase ticket).set ticket loan } p := by
  refine { refl p with loans := fun t => ?_ }
  rw [Table.get?_set, Table.get?_erase]
  split
  · rename_i ht
    rw [← ht, hloan]
  · rfl

section Readings
variable (h : p.SameView q)
include h

theorem reserve? (asset : Address) : p.reserve? asset = q.reserve? asset := by
  rw [Pool.reserve?, Pool.reserve?, h.reserves]

theorem totals (account : Address) (r : Reserve) : p.totals account r = q.totals account r := by
  rw [Pool.totals, Pool.totals, h.balance]

theorem snapshot (account : Address) : p.snapshot account = q.snapshot account := by
  have hholding : p.holding? account = q.holding? account := by
    funext r
    rw [holding?, holding?, h.balance, h.totals]
  rw [Pool.snapshot, Pool.snapshot, h.reserves, hholding]

theorem flashFee (amount : Word) : p.flashFee amount = q.flashFee amount := by
  rw [Pool.flashFee, Pool.flashFee, h.feeBps]

theorem contains_opened (account : Address) :
    p.opened.contains account = q.opened.contains account := by
  rw [Table.contains, Table.contains, h.opened]

theorem loans_size : p.loans.size = q.loans.size := by
  have hsize : ∀ t : Table Nat Loan, t.size = t.total fun _ _ => 1 := by
    intro t
    simp [Table.size, Table.total]
  rw [hsize, hsize]
  refine Table.total_congr fun k => ?_
  rw [Table.weight, Table.weight, h.loans]

end Readings

section Changes
variable (h : p.SameView q)
include h

theorem mapReserve (asset : Address) (f : Reserve → Reserve) :
    (p.mapReserve asset f).SameView (q.mapReserve asset f) :=
  { h with reserves := congrArg (List.map _) h.reserves }

theorem mapLiquidity (asset : Address) (f : Word → Word) :
    (p.mapLiquidity asset f).SameView (q.mapLiquidity asset f) :=
  h.mapReserve asset fun r => { r with liquidity := f r.liquidity }

theorem list (r : Reserve) : (p.list r).SameView (q.list r) := by
  rw [Pool.list, Pool.list, h.reserve?]
  split
  · exact h.mapReserve r.asset fun _ => r
  · exact { h with reserves := congrArg (· ++ [r]) h.reserves }

theorem setBalance (account asset : Address) (b : Balance) :
    (p.setBalance account asset b).SameView (q.setBalance account asset b) :=
  { h with balance := fun a c => by rw [balance_setBalance, balance_setBalance, h.balance] }

theorem setAllowance (account delegatee asset : Address) (amount : Word) :
    (p.setAllowance account delegatee asset amount).SameView
      (q.setAllowance account delegatee asset amount) := by
  refine { h with allowance := fun a d c => ?_ }
  have hread : ∀ s : Pool, (s.setAllowance account delegatee asset amount).allowance a d c =
      if (account, delegatee, asset) = (a, d, c) then amount else s.allowance a d c :=
    fun s => Table.getD_set ..
  rw [hread, hread, h.allowance]

theorem record (account : Address) (e : Entry) :
    (p.record account e).SameView (q.record account e) := by
  rw [record_eq, record_eq]
  exact { h with journals := fun id => by rw [get?_noted, get?_noted, h.opened, h.journals] }

theorem credit (asset : Address) (amount scaled : Word) (account : Address) :
    (p.credit asset amount scaled account).SameView (q.credit asset amount scaled account) := by
  rw [Pool.credit, Pool.credit, h.balance]
  exact ((h.mapLiquidity asset (· + amount)).setBalance account asset _).record account _

theorem debit (asset : Address) (amount scaled : Word) (delegatee account : Address) (used : Word) :
    (p.debit asset amount scaled delegatee account used).SameView
      (q.debit asset amount scaled delegatee account used) := by
  rw [Pool.debit, Pool.debit, h.balance]
  exact ((h.mapLiquidity asset (· - amount)).setBalance account asset _).record account _

theorem issue (t : Ticket) (account : Address) : (p.issue t account).SameView (q.issue t account) := by
  have hissued : SameView
      { p.takeLiquidity t.asset t.amount with
        lastTicket := t.id, loans := p.loans.set t.id ⟨t.asset, t.amount, t.fee, account⟩ }
      { q.takeLiquidity t.asset t.amount with
        lastTicket := t.id, loans := q.loans.set t.id ⟨t.asset, t.amount, t.fee, account⟩ } :=
    { h.mapLiquidity t.asset (· - t.amount) with
      lastTicket := rfl
      loans := fun i => by rw [Table.get?_set, Table.get?_set, h.loans] }
  exact hissued.record account _

theorem eraseLoan (ticket : Nat) :
    SameView { p with loans := p.loans.erase ticket } { q with loans := q.loans.erase ticket } :=
  { h with loans := fun i => by rw [Table.get?_erase, Table.get?_erase, h.loans] }

theorem redeem (loan : Loan) : (p.redeem loan).SameView (q.redeem loan) := by
  have hpaid : SameView
      { p.addLiquidity loan.asset (loan.amount + loan.fee) with
        fees := p.fees.set loan.asset (p.feesCollected loan.asset + loan.fee) }
      { q.addLiquidity loan.asset (loan.amount + loan.fee) with
        fees := q.fees.set loan.asset (q.feesCollected loan.asset + loan.fee) } := by
    refine { h.mapLiquidity loan.asset (· + (loan.amount + loan.fee)) with
      feesCollected := fun asset => ?_ }
    show (p.fees.set loan.asset _).getD asset 0 = (q.fees.set loan.asset _).getD asset 0
    rw [Table.getD_set, Table.getD_set, h.feesCollected loan.asset]
    split
    · rfl
    · exact h.feesCollected asset
  exact hpaid.record loan.account _

theorem openJournal (account : Address) :
    (p.openJournal account).SameView (q.openJournal account) := by
  rw [Pool.openJournal, Pool.openJournal, h.lastCheckpoint]
  exact { h with
    lastCheckpoint := rfl
    journals := fun id => by rw [Table.get?_set, Table.get?_set, h.journals]
    opened := fun a => by rw [Table.get?_set, Table.get?_set, h.opened] }

theorem close (id : Nat) (account : Address) :
    (p.close id account).SameView (q.close id account) :=
  { h with
    journals := fun i => by
      rw [Pool.close, Pool.close, Table.get?_erase, Table.get?_erase, h.journals]
    opened := fun a => by
      rw [Pool.close, Pool.close, Table.get?_erase, Table.get?_erase, h.opened] }

theorem undoAll (es : List Entry) : (p.undoAll es).SameView (q.undoAll es) where
  toSameBooks := h.toSameBooks.undoAll es
  loans t := by rw [get?_loans_undoAll, get?_loans_undoAll, h.loans]
  lastTicket := by rw [undoAll_lastTicket, undoAll_lastTicket, h.lastTicket]
  lastCheckpoint := by rw [undoAll_lastCheckpoint, undoAll_lastCheckpoint, h.lastCheckpoint]

end Changes
end SameView

section Operations

theorem blind_view {α : Type} {f : Pool → PoolM α}
    (h : ∀ {p q}, p.SameView q → Alike SameView Eq (f p) (f q) p q) : Blind SameView (get >>= f) :=
  blind_get_bind h

instance (asset : Address) : Blind SameView (reserve asset) := by
  refine blind_view fun {p q} h => ?_
  simp only [h.reserve? asset]
  cases q.reserve? asset with
  | some r => exact alike_of_ok rfl rfl rfl h
  | none => exact alike_of_error rfl rfl h

instance (asset : Address) : Blind SameView (activeReserve asset) := by
  unfold activeReserve
  infer_instance

instance (asset : Address) (c : ReservePatch) : Blind SameView (updateReserve asset c) := by
  have hpatch : Blind SameView (modify (·.mapReserve asset (·.patch c)) : PoolM PUnit) :=
    blind_modify fun h => h.mapReserve asset (·.patch c)
  unfold updateReserve
  infer_instance

instance (asset : Address) (amount : Word) : Blind SameView (supply asset amount) := by
  have hadd : Blind SameView (modify (·.addLiquidity asset amount) : PoolM PUnit) :=
    blind_modify fun h => h.mapLiquidity asset (· + amount)
  unfold supply
  infer_instance

instance (asset : Address) (amount : Word) (account : Address) :
    Blind SameView (deposit asset amount account) := by
  have hcredit : ∀ scaled, Blind SameView
      (modify (·.credit asset amount scaled account) : PoolM PUnit) := fun scaled =>
    blind_modify fun h => h.credit asset amount scaled account
  unfold deposit
  infer_instance

instance (account delegatee asset : Address) (amount : Word) :
    Blind SameView (spendAllowance account delegatee asset amount) := by
  have hspend : Blind SameView (do
      let p ← get
      let available := p.allowance account delegatee asset
      if available < amount then Action.refuse (.insufficientAllowance asset amount available)
      else
        set (p.setAllowance account delegatee asset (available - amount))
        return amount : PoolM Word) := by
    refine blind_view fun {p q} h => ?_
    simp only [h.allowance]
    exact alike_ite (fun _ => alike_of_error rfl rfl h) fun _ =>
      alike_of_ok rfl rfl rfl (h.setAllowance ..)
  unfold spendAllowance
  infer_instance

instance (asset : Address) (amount : Word) (delegatee account : Address) :
    Blind SameView (borrow asset amount delegatee account) := by
  have hdebit : ∀ scaled used, Blind SameView
      (modify (·.debit asset amount scaled delegatee account used) : PoolM PUnit) := fun _ _ =>
    blind_modify fun h => h.debit ..
  unfold borrow
  infer_instance

instance (asset : Address) (amount : Word) (account : Address) :
    Blind SameView (acquire asset amount account) := by
  have hissue : Blind SameView (do
      let p ← get
      let ticket : Ticket := ⟨p.lastTicket + 1, asset, amount, p.flashFee amount⟩
      set (p.issue ticket account)
      return ticket : PoolM Ticket) := by
    refine blind_view fun {p q} h => ?_
    simp only [h.lastTicket, h.flashFee]
    exact alike_of_ok rfl rfl rfl (h.issue ..)
  unfold acquire
  infer_instance

instance (ticket : Nat) (paid : Word) : Blind SameView (repay ticket paid) := by
  have hreturn : ∀ loan : Loan, Blind SameView (do
      let _ ← reserve loan.asset
      modify (·.redeem loan) : PoolM PUnit) := by
    intro loan
    have hredeem : Blind SameView (modify (·.redeem loan) : PoolM PUnit) :=
      blind_modify fun h => h.redeem loan
    infer_instance
  refine blind_view fun {p q} h => ?_
  simp only [h.loans]
  cases q.loans.get? ticket with
  | none => exact alike_of_error rfl rfl h
  | some loan =>
    refine alike_ite (fun _ => alike_of_error rfl rfl h) fun _ => ?_
    exact (alike_set (h.eraseLoan ticket)).bind fun _ h => (hreturn loan).alike h

instance (account : Address) : Blind SameView (checkpoint account) := by
  refine blind_view fun {p q} h => ?_
  simp only [h.contains_opened, h.lastCheckpoint]
  exact alike_ite (fun _ => alike_of_error rfl rfl h) fun _ =>
    alike_of_ok rfl rfl rfl (h.openJournal account)

instance (id : Nat) : Blind SameView (revert id) := by
  refine blind_view fun {p q} h => ?_
  simp only [h.journals]
  cases q.journals.get? id with
  | none => exact alike_of_error rfl rfl h
  | some j => exact alike_of_ok rfl rfl rfl ((h.close id j.account).undoAll j.entries)

instance (id : Nat) : Blind SameView (commit id) := by
  refine blind_view fun {p q} h => ?_
  simp only [h.journals]
  cases q.journals.get? id with
  | none => exact alike_of_error rfl rfl h
  | some j => exact alike_of_ok rfl rfl rfl (h.close id j.account)

instance (amount : Word) : Blind SameView (wrap amount) :=
  blind_modify fun h => { h with wrapped := congrArg (· + amount) h.wrapped }

instance (amount : Word) : Blind SameView (unwrap amount) := by
  refine blind_view fun {p q} h => ?_
  simp only [h.wrapped]
  exact alike_ite (fun _ => alike_of_error rfl rfl h) fun _ =>
    alike_of_ok rfl rfl rfl { h with wrapped := rfl }

instance (op : Op) : Blind SameView (apply op) := by
  cases op with
  | list r =>
    have hlist : Blind SameView (modify (·.list r) : PoolM PUnit) := blind_modify fun h => h.list r
    unfold apply
    infer_instance
  | approve account delegatee asset amount =>
    have hset : Blind SameView
        (modify (·.setAllowance account delegatee asset amount) : PoolM PUnit) :=
      blind_modify fun h => h.setAllowance account delegatee asset amount
    unfold apply
    infer_instance
  | _ =>
    unfold apply
    infer_instance

end Operations

end Gearing.Pool
